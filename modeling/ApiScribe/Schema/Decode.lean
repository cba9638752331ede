import ApiScribe.Json.Decode
import ApiScribe.Schema.Basic

/-!
# Schemas from JSON
-/

namespace ApiScribe

open Json (Decoder FieldSpec)

/-- External documentation from JSON. -/
def Comment.ExternalDocs.decode : Decoder Comment.ExternalDocs := fun depth tree => do
  let fields ← Decoder.fields [⟨"url", false⟩, ⟨"description", false⟩] depth tree
  return ⟨← fields.required "url" Decoder.text, ← fields.optional "description" Decoder.text⟩

namespace Schema

/-- The fields of a schema object in their fixed order. -/
def fieldSpecs : List FieldSpec :=
  [⟨"$ref", false⟩, ⟨"type", false⟩, ⟨"format", false⟩, ⟨"description", false⟩, ⟨"enum", true⟩,
   ⟨"example", false⟩, ⟨"default", false⟩, ⟨"nullable", false⟩, ⟨"deprecated", false⟩,
   ⟨"items", false⟩, ⟨"properties", true⟩, ⟨"additionalProperties", false⟩, ⟨"required", true⟩,
   ⟨"oneOf", true⟩, ⟨"xml", false⟩, ⟨"externalDocs", false⟩]

/-- The name in an `xml` object. -/
def decodeXml : Decoder String := fun depth tree => do
  (← Decoder.fields [⟨"name", false⟩] depth tree).required "name" Decoder.text

/-- A schema whose schemas inside nest at most `levels` deep. -/
def decodeWithin : Nat → Decoder Schema
  | 0, _, _ => none
  | levels + 1, depth, tree => do
    let fields ← Decoder.fields fieldSpecs depth tree
    return {
      reference := ← fields.optional "$ref" Decoder.text
      kind := ← fields.optional "type" (Decoder.word SchemaKind.ofName?)
      format := ← fields.optional "format" Decoder.text
      description := ← fields.optional "description" Decoder.text
      enumValues := ← fields.defaulted "enum" (Decoder.listOf Decoder.value)
      sample := ← fields.optional "example" Decoder.value
      default := ← fields.optional "default" Decoder.value
      nullable := ← fields.optional "nullable" Decoder.flag
      deprecated := ← fields.optional "deprecated" Decoder.flag
      items := ← fields.optional "items" (decodeWithin levels)
      properties := ← fields.defaulted "properties" (Decoder.mapOf (decodeWithin levels))
      additional := ← fields.optional "additionalProperties" (decodeWithin levels)
      required := ← fields.defaulted "required" (Decoder.listOf Decoder.text)
      oneOf := ← fields.defaulted "oneOf" (Decoder.listOf (decodeWithin levels))
      xmlName := ← fields.optional "xml" decodeXml
      externalDocs := ← fields.optional "externalDocs" Comment.ExternalDocs.decode }

/-- A schema; each schema inside another is a container deeper. -/
def decode : Decoder Schema := fun depth tree => decodeWithin depth depth tree

end Schema

end ApiScribe
