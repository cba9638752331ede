import ApiScribe.Json.Encode
import ApiScribe.Schema.Basic

/-!
# Schemas as JSON
-/

namespace ApiScribe

open Json (member optional unlessEmpty unlessEmptyObject)

/-- External documentation as JSON. -/
def Comment.ExternalDocs.toJson (docs : Comment.ExternalDocs) : Json.Value :=
  .obj (member "url" (.str docs.url) ++ optional "description" .str docs.description)

namespace Schema

mutual

/-- A schema as JSON. -/
def toJson : Schema → Json.Value
  | ⟨reference, kind, format, description, enumValues, sample, default, nullable, deprecated, items,
      properties, additional, required, oneOf, xmlName, externalDocs⟩ =>
    .obj (optional "$ref" .str reference ++ optional "type" (fun kind => .str (SchemaKind.name kind)) kind ++
      optional "format" .str format ++ optional "description" .str description ++
      unlessEmpty "enum" enumValues ++ optional "example" id sample ++ optional "default" id default ++
      optional "nullable" .bool nullable ++ optional "deprecated" .bool deprecated ++
      toJsonOption "items" items ++ unlessEmptyObject "properties" (toJsonMembers properties) ++
      toJsonOption "additionalProperties" additional ++ unlessEmpty "required" (required.map .str) ++
      unlessEmpty "oneOf" (toJsonList oneOf) ++
      optional "xml" (fun name => .obj [("name", .str name)]) xmlName ++
      optional "externalDocs" Comment.ExternalDocs.toJson externalDocs)

/-- A schema that may be absent, as a member. -/
def toJsonOption (key : String) : Option Schema → List (String × Json.Value)
  | none => []
  | some schema => [(key, toJson schema)]

/-- A list of schemas as JSON. -/
def toJsonList : List Schema → List Json.Value
  | [] => []
  | schema :: rest => toJson schema :: toJsonList rest

/-- Named schemas as members. -/
def toJsonMembers : List (String × Schema) → List (String × Json.Value)
  | [] => []
  | (name, schema) :: rest => (name, toJson schema) :: toJsonMembers rest

end

end Schema

end ApiScribe
