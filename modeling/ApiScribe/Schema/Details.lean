import ApiScribe.Comment.Field
import ApiScribe.Decimal.Reader
import ApiScribe.Json.Reader
import ApiScribe.Schema.Basic

/-!
# Details from comments

What a comment says about a field or a type is laid over the schema inferred from its type. Literals
are read as the schema's kind asks; those that cannot be are kept as text.
-/

namespace ApiScribe.Schema

/-- Read a literal as a value of a kind, if it is one. -/
def literal? (literal : String) : Option SchemaKind → Option Json.Value
  | some .integer => (Decimal.int64OfText? literal).map .int
  | some .number => (Decimal.floatOfText? literal).map .float
  | some .boolean =>
    if literal = "true" then some (.bool true)
    else if literal = "false" then some (.bool false)
    else none
  | some .array => Json.Value.ofText? literal
  | some .object => Json.Value.ofText? literal
  | some .string => none
  | none => none

/-- The value of a literal for a schema of a kind: itself as text when it is nothing else. -/
def coerce (literal : String) (kind : Option SchemaKind) : Json.Value :=
  (literal? literal kind).getD (.str literal)

/-- Lay what any schema can carry over it. -/
def withRemarks (schema : Schema) (remarks : Comment.Field) : Schema :=
  { schema with
    description := remarks.description.or schema.description
    nullable := remarks.nullable.or schema.nullable
    deprecated := remarks.deprecated.or schema.deprecated }

/-- Lay everything said about a field over its schema. -/
def withDetails (schema : Schema) (remarks : Comment.Field) : Schema :=
  let schema := schema.withRemarks remarks
  { schema with
    format := remarks.format.or schema.format
    sample := (remarks.sample.map fun text => coerce text schema.kind).or schema.sample
    default := (remarks.default.map fun text => coerce text schema.kind).or schema.default
    enumValues :=
      if remarks.enumValues.isEmpty then schema.enumValues
      else remarks.enumValues.map fun text => coerce text schema.kind }

/-- Lay what is said about a type over its component. -/
def withContainer (schema : Schema) (container : Comment.Container) : Schema :=
  { schema with
    description := container.description.or schema.description
    xmlName := container.xmlName.or schema.xmlName
    externalDocs := container.externalDocs.or schema.externalDocs
    deprecated := container.deprecated.or schema.deprecated }

end ApiScribe.Schema
