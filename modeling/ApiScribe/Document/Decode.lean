import ApiScribe.Document.Basic
import ApiScribe.Schema.Decode
import ApiScribe.Text.Order

/-!
# The document from JSON
-/

namespace ApiScribe

open Json (Decoder)

namespace Document

/-- A contact from JSON. -/
def Contact.decode : Decoder Contact := fun depth tree => do
  let fields ← Decoder.fields [⟨"name", false⟩, ⟨"url", false⟩, ⟨"email", false⟩] depth tree
  return {
    name := ← fields.optional "name" Decoder.text
    url := ← fields.optional "url" Decoder.text
    email := ← fields.optional "email" Decoder.text }

/-- A licence from JSON. -/
def License.decode : Decoder License := fun depth tree => do
  let fields ← Decoder.fields [⟨"name", false⟩, ⟨"url", false⟩] depth tree
  return {
    name := ← fields.required "name" Decoder.text
    url := ← fields.optional "url" Decoder.text }

/-- The document's information from JSON. -/
def Info.decode : Decoder Info := fun depth tree => do
  let fields ← Decoder.fields
    [⟨"title", false⟩, ⟨"description", false⟩, ⟨"termsOfService", false⟩, ⟨"contact", false⟩,
     ⟨"license", false⟩, ⟨"version", false⟩] depth tree
  return {
    title := ← fields.required "title" Decoder.text
    description := ← fields.optional "description" Decoder.text
    termsOfService := ← fields.optional "termsOfService" Decoder.text
    contact := ← fields.optional "contact" Contact.decode
    license := ← fields.optional "license" License.decode
    version := ← fields.required "version" Decoder.text }

/-- A server from JSON. -/
def Server.decode : Decoder Server := fun depth tree => do
  let fields ← Decoder.fields [⟨"url", false⟩, ⟨"description", false⟩] depth tree
  return {
    url := ← fields.required "url" Decoder.text
    description := ← fields.optional "description" Decoder.text }

/-- A tag from JSON. -/
def Tag.decode : Decoder Tag := fun depth tree => do
  let fields ← Decoder.fields
    [⟨"name", false⟩, ⟨"description", false⟩, ⟨"externalDocs", false⟩] depth tree
  return {
    name := ← fields.required "name" Decoder.text
    description := ← fields.optional "description" Decoder.text
    externalDocs := ← fields.optional "externalDocs" Comment.ExternalDocs.decode }

/-- A parameter from JSON. -/
def Parameter.decode : Decoder Parameter := fun depth tree => do
  let fields ← Decoder.fields
    [⟨"name", false⟩, ⟨"in", false⟩, ⟨"description", false⟩, ⟨"required", false⟩, ⟨"schema", false⟩]
    depth tree
  return {
    name := ← fields.required "name" Decoder.text
    location := ← fields.required "in" (Decoder.word Operation.Location.ofName?)
    description := ← fields.optional "description" Decoder.text
    required := ← fields.required "required" Decoder.flag
    schema := ← fields.required "schema" Schema.decode }

/-- The schema of a media type from JSON. -/
def decodeMedia : Decoder Schema := fun depth tree => do
  (← Decoder.fields [⟨"schema", false⟩] depth tree).required "schema" Schema.decode

/-- A map sorted by key; of a repeated key the last value counts. -/
def sortedMapOf {α : Type} (decode : Decoder α) : Decoder (List (String × α)) := fun depth tree =>
  (Decoder.membersOf decode depth tree).map fun members =>
    members.foldl (fun sorted entry => Text.insertSorted Text.compareText entry.1 entry.2 sorted) []

/-- A request body from JSON. -/
def RequestBody.decode : Decoder RequestBody := fun depth tree => do
  let fields ← Decoder.fields
    [⟨"description", false⟩, ⟨"required", false⟩, ⟨"content", false⟩] depth tree
  return {
    description := ← fields.optional "description" Decoder.text
    required := ← fields.required "required" Decoder.flag
    content := ← fields.required "content" (Decoder.mapOf decodeMedia) }

/-- A response from JSON. -/
def Response.decode : Decoder Response := fun depth tree => do
  let fields ← Decoder.fields [⟨"description", false⟩, ⟨"content", true⟩] depth tree
  return {
    description := ← fields.required "description" Decoder.text
    content := ← fields.defaulted "content" (Decoder.mapOf decodeMedia) }

/-- An operation from JSON. -/
def Operation.decode : Decoder Operation := fun depth tree => do
  let fields ← Decoder.fields
    [⟨"tags", true⟩, ⟨"summary", false⟩, ⟨"description", false⟩, ⟨"operationId", false⟩,
     ⟨"parameters", true⟩, ⟨"requestBody", false⟩, ⟨"responses", false⟩, ⟨"security", true⟩,
     ⟨"deprecated", false⟩] depth tree
  return {
    tags := ← fields.defaulted "tags" (Decoder.listOf Decoder.text)
    summary := ← fields.optional "summary" Decoder.text
    description := ← fields.optional "description" Decoder.text
    operationId := ← fields.required "operationId" Decoder.text
    parameters := ← fields.defaulted "parameters" (Decoder.listOf Parameter.decode)
    requestBody := ← fields.optional "requestBody" RequestBody.decode
    responses := ← fields.required "responses" (sortedMapOf Response.decode)
    security :=
      ← fields.defaulted "security" (Decoder.listOf (Decoder.mapOf (Decoder.listOf Decoder.text)))
    deprecated := ← fields.optional "deprecated" Decoder.flag }

/-- The operations of a path from JSON. -/
def PathItem.decode : Decoder PathItem := fun depth tree => do
  let fields ← Decoder.fields
    [⟨"get", false⟩, ⟨"put", false⟩, ⟨"post", false⟩, ⟨"delete", false⟩, ⟨"options", false⟩,
     ⟨"head", false⟩, ⟨"patch", false⟩, ⟨"trace", false⟩] depth tree
  return {
    get := ← fields.optional "get" Operation.decode
    put := ← fields.optional "put" Operation.decode
    post := ← fields.optional "post" Operation.decode
    delete := ← fields.optional "delete" Operation.decode
    options := ← fields.optional "options" Operation.decode
    head := ← fields.optional "head" Operation.decode
    patch := ← fields.optional "patch" Operation.decode
    trace := ← fields.optional "trace" Operation.decode }

/-- Component schemas from JSON. -/
def decodeComponents : Decoder (List (String × Schema)) := fun depth tree => do
  (← Decoder.fields [⟨"schemas", false⟩] depth tree).required "schemas" (sortedMapOf Schema.decode)

/-- The document from JSON. -/
def decode : Decoder Document := fun depth tree => do
  let fields ← Decoder.fields
    [⟨"openapi", false⟩, ⟨"info", false⟩, ⟨"servers", true⟩, ⟨"tags", true⟩, ⟨"paths", false⟩,
     ⟨"components", false⟩] depth tree
  return {
    openapi := ← fields.required "openapi" Decoder.text
    info := ← fields.required "info" Info.decode
    servers := ← fields.defaulted "servers" (Decoder.listOf Server.decode)
    tags := ← fields.defaulted "tags" (Decoder.listOf Tag.decode)
    paths := ← fields.required "paths" (sortedMapOf PathItem.decode)
    components := ← fields.optional "components" decodeComponents }

/-- Read the text of a document. -/
def ofText? (text : String) : Option Document := Decoder.ofText? decode text

end Document

end ApiScribe
