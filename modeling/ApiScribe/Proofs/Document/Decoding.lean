import ApiScribe.Document.Decode
import ApiScribe.Document.Encode
import ApiScribe.Proofs.Document.References
import ApiScribe.Proofs.Schema.Decoding

/-!
# Documents through JSON

Decoding the JSON of a document gives the document back, with every example or default that is null left out.
The maps of a document are lists of entries here. The sorted ones, which are paths, responses and component
schemas, ascend by key; the others have no key twice. Nothing else is asked of a document.
-/

namespace ApiScribe

open Json (Value Reads present listSlot objectSlot)

namespace Document

/-- Entries ascend by key. -/
def KeysAscend {α : Type} (entries : List (String × α)) : Prop :=
  (entries.map Prod.fst).Pairwise fun a b => Text.compareText a b = .lt

/-- A sorted map is read as it is. -/
theorem reads_sortedMapOf {α β : Type} {decode : Json.Decoder β} {encode : α → Value} {restore : α → β}
    {entries : List (String × α)} (hkeys : KeysAscend entries)
    (h : ∀ entry ∈ entries, Reads decode (encode entry.2) (restore entry.2)) :
    Reads (sortedMapOf decode) (.obj (entries.map fun entry => (entry.1, encode entry.2)))
      (entries.map fun entry => (entry.1, restore entry.2)) := by
  intro depth hdepth
  have hrestored : KeysAscend (entries.map fun entry => (entry.1, restore entry.2)) := by
    rw [KeysAscend, List.map_map]
    exact hkeys
  rw [sortedMapOf, Reads.membersOf h depth hdepth, Option.map_some, Text.foldl_insertSorted_of_ascending hrestored]

/-- A contact is read back. -/
theorem Contact.reads (contact : Contact) : Reads Contact.decode contact.toJson contact := by
  have hslots : contact.toJson = .obj (present [("name", contact.name.map .str), ("url", contact.url.map .str),
      ("email", contact.email.map .str)]) := by
    simp only [toJson, Json.optional_eq_present, ← Json.present_append, List.cons_append, List.nil_append]
  rw [hslots]
  refine Reads.record rfl (by decide) fun fields hfields => ?_
  rw [hfields.optional_text "name" contact.name (by simp), hfields.optional_text "url" contact.url (by simp),
    hfields.optional_text "email" contact.email (by simp)]
  rfl

/-- A license is read back. -/
theorem License.reads (license : License) : Reads License.decode license.toJson license := by
  have hslots : license.toJson =
      .obj (present [("name", some (.str license.name)), ("url", license.url.map .str)]) := by
    simp only [toJson, Json.member_eq_present, Json.optional_eq_present, ← Json.present_append, List.cons_append,
      List.nil_append]
  rw [hslots]
  refine Reads.record rfl (by decide) fun fields hfields => ?_
  rw [hfields.required "name" (.str license.name) (by simp) (Reads.text license.name),
    hfields.optional_text "url" license.url (by simp)]
  rfl

/-- The head of a document is read back. -/
theorem Info.reads (info : Info) : Reads Info.decode info.toJson info := by
  have hslots : info.toJson = .obj (present [("title", some (.str info.title)),
      ("description", info.description.map .str), ("termsOfService", info.termsOfService.map .str),
      ("contact", info.contact.map Contact.toJson), ("license", info.license.map License.toJson),
      ("version", some (.str info.version))]) := by
    simp only [toJson, Json.member_eq_present, Json.optional_eq_present, ← Json.present_append, List.cons_append,
      List.nil_append]
  rw [hslots]
  refine Reads.record rfl (by decide) fun fields hfields => ?_
  rw [hfields.required "title" (.str info.title) (by simp) (Reads.text info.title),
    hfields.optional_text "description" info.description (by simp),
    hfields.optional_text "termsOfService" info.termsOfService (by simp),
    hfields.optional_map "contact" Contact.toJson info.contact (by simp) (fun _ => nofun) fun contact _ =>
      contact.reads,
    hfields.optional_map "license" License.toJson info.license (by simp) (fun _ => nofun) fun license _ =>
      license.reads,
    hfields.required "version" (.str info.version) (by simp) (Reads.text info.version),
    Option.map_id', Option.map_id']
  rfl

/-- A server is read back. -/
theorem Server.reads (server : Server) : Reads Server.decode server.toJson server := by
  have hslots : server.toJson =
      .obj (present [("url", some (.str server.url)), ("description", server.description.map .str)]) := by
    simp only [toJson, Json.member_eq_present, Json.optional_eq_present, ← Json.present_append, List.cons_append,
      List.nil_append]
  rw [hslots]
  refine Reads.record rfl (by decide) fun fields hfields => ?_
  rw [hfields.required "url" (.str server.url) (by simp) (Reads.text server.url),
    hfields.optional_text "description" server.description (by simp)]
  rfl

/-- A tag is read back. -/
theorem Tag.reads (tag : Tag) : Reads Tag.decode tag.toJson tag := by
  have hslots : tag.toJson = .obj (present [("name", some (.str tag.name)),
      ("description", tag.description.map .str),
      ("externalDocs", tag.externalDocs.map Comment.ExternalDocs.toJson)]) := by
    simp only [toJson, Json.member_eq_present, Json.optional_eq_present, ← Json.present_append, List.cons_append,
      List.nil_append]
  rw [hslots]
  refine Reads.record rfl (by decide) fun fields hfields => ?_
  rw [hfields.required "name" (.str tag.name) (by simp) (Reads.text tag.name),
    hfields.optional_text "description" tag.description (by simp),
    hfields.optional_map "externalDocs" Comment.ExternalDocs.toJson tag.externalDocs (by simp) (fun _ => nofun)
      fun docs _ => docs.reads, Option.map_id']
  rfl

/-- The location of a parameter is known by its name. -/
theorem ofName?_location (location : ApiScribe.Operation.Location) :
    ApiScribe.Operation.Location.ofName? location.name = some location := by
  cases location <;> rfl

/-- The parameter without null literals. -/
def Parameter.withoutNulls (parameter : Parameter) : Parameter :=
  { parameter with schema := parameter.schema.withoutNulls }

/-- A parameter is read back, up to nulls in its schema. -/
theorem Parameter.reads {parameter : Parameter} (h : parameter.schema.KeysDistinct) :
    Reads Parameter.decode parameter.toJson parameter.withoutNulls := by
  have hslots : parameter.toJson = .obj (present [("name", some (.str parameter.name)),
      ("in", some (.str parameter.location.name)), ("description", parameter.description.map .str),
      ("required", some (.bool parameter.required)), ("schema", some parameter.schema.toJson)]) := by
    simp only [toJson, Json.member_eq_present, Json.optional_eq_present, ← Json.present_append, List.cons_append,
      List.nil_append]
  rw [hslots]
  refine Reads.record rfl (by decide) fun fields hfields => ?_
  rw [hfields.required "name" (.str parameter.name) (by simp) (Reads.text parameter.name),
    hfields.required "in" (.str parameter.location.name) (by simp) (Reads.word (ofName?_location _)),
    hfields.optional_text "description" parameter.description (by simp),
    hfields.required "required" (.bool parameter.required) (by simp) (Reads.flag parameter.required),
    hfields.required "schema" parameter.schema.toJson (by simp) (Schema.reads h)]
  rfl

/-- A media type is read back as its schema. -/
theorem reads_media {schema : Schema} (h : schema.KeysDistinct) :
    Reads decodeMedia (.obj [("schema", schema.toJson)]) schema.withoutNulls := by
  change Reads decodeMedia (.obj (present [("schema", some schema.toJson)])) schema.withoutNulls
  refine Reads.record rfl (by decide) fun fields hfields => ?_
  exact hfields.required "schema" schema.toJson (by simp) (Schema.reads h)

/-- Schemas by name without null literals. -/
def schemasWithoutNulls (schemas : List (String × Schema)) : List (String × Schema) :=
  schemas.map fun entry => (entry.1, entry.2.withoutNulls)

/-- The request body without null literals. -/
def RequestBody.withoutNulls (body : RequestBody) : RequestBody :=
  { body with content := schemasWithoutNulls body.content }

/-- A request body is read back. -/
theorem RequestBody.reads {body : RequestBody} (hkeys : (body.content.map Prod.fst).Nodup)
    (h : ∀ entry ∈ body.content, entry.2.KeysDistinct) :
    Reads RequestBody.decode body.toJson body.withoutNulls := by
  have hslots : body.toJson = .obj (present [("description", body.description.map .str),
      ("required", some (.bool body.required)), ("content", some (.obj (contentMembers body.content)))]) := by
    simp only [toJson, Json.member_eq_present, Json.optional_eq_present, ← Json.present_append, List.cons_append,
      List.nil_append]
  rw [hslots]
  refine Reads.record rfl (by decide) fun fields hfields => ?_
  rw [hfields.optional_text "description" body.description (by simp),
    hfields.required "required" (.bool body.required) (by simp) (Reads.flag body.required),
    hfields.required "content" (.obj (contentMembers body.content)) (by simp)
      (Reads.mapOf (fun schema => .obj [("schema", schema.toJson)]) Schema.withoutNulls hkeys fun entry hentry =>
        reads_media (h entry hentry))]
  rfl

/-- The response without null literals. -/
def Response.withoutNulls (response : Response) : Response :=
  { response with content := schemasWithoutNulls response.content }

/-- A response is read back. -/
theorem Response.reads {response : Response} (hkeys : (response.content.map Prod.fst).Nodup)
    (h : ∀ entry ∈ response.content, entry.2.KeysDistinct) :
    Reads Response.decode response.toJson response.withoutNulls := by
  have hslots : response.toJson = .obj (present [("description", some (.str response.description)),
      ("content", objectSlot (contentMembers response.content))]) := by
    simp only [toJson, Json.member_eq_present, Json.unlessEmptyObject_eq_present, ← Json.present_append,
      List.cons_append, List.nil_append]
  rw [hslots]
  refine Reads.record rfl (by decide) fun fields hfields => ?_
  rw [hfields.required "description" (.str response.description) (by simp) (Reads.text response.description),
    hfields.defaulted_map "content" (fun schema => .obj [("schema", schema.toJson)]) response.content
      (by simp [contentMembers]) hkeys fun entry hentry => reads_media (h entry hentry)]
  rfl

/-- A security requirement is read back. -/
theorem reads_requirement {requirement : List (String × List String)} (hkeys : (requirement.map Prod.fst).Nodup) :
    Reads (Json.Decoder.mapOf (Json.Decoder.listOf Json.Decoder.text)) (requirementToJson requirement)
      requirement := by
  have hscopes (scopes : List String) :
      Reads (Json.Decoder.listOf Json.Decoder.text) (.arr (scopes.map .str)) scopes := by
    have hread := Reads.listOf fun scope (_ : scope ∈ scopes) => Reads.text scope
    rwa [List.map_id'] at hread
  have hread := Reads.mapOf (fun scopes => .arr (scopes.map .str)) (fun scopes => scopes) hkeys fun entry _ =>
    hscopes entry.2
  rwa [List.map_id'] at hread

/-- The maps of an operation are maps: the responses ascend by status, no other map has a key twice. -/
structure Operation.WellFormed (operation : Operation) : Prop where
  body : ∀ body, operation.requestBody = some body → (body.content.map Prod.fst).Nodup
  responses : KeysAscend operation.responses
  response : ∀ entry ∈ operation.responses, (entry.2.content.map Prod.fst).Nodup
  security : ∀ requirement ∈ operation.security, (requirement.map Prod.fst).Nodup
  schemas : ∀ schema, operation.Shows schema → schema.KeysDistinct

/-- The operation without null literals. -/
def Operation.withoutNulls (operation : Operation) : Operation :=
  { operation with
    parameters := operation.parameters.map Parameter.withoutNulls
    requestBody := operation.requestBody.map RequestBody.withoutNulls
    responses := operation.responses.map fun entry => (entry.1, entry.2.withoutNulls) }

/-- The slots of an operation object. -/
def Operation.slots (operation : Operation) : List (String × Option Value) :=
  [("tags", listSlot (operation.tags.map .str)), ("summary", operation.summary.map .str),
   ("description", operation.description.map .str), ("operationId", some (.str operation.operationId)),
   ("parameters", listSlot (operation.parameters.map Parameter.toJson)),
   ("requestBody", operation.requestBody.map RequestBody.toJson),
   ("responses", some (.obj (operation.responses.map fun entry => (entry.1, entry.2.toJson)))),
   ("security", listSlot (operation.security.map requirementToJson)),
   ("deprecated", operation.deprecated.map .bool)]

/-- An operation is written as the slots that are present. -/
theorem Operation.toJson_eq (operation : Operation) : operation.toJson = .obj (present operation.slots) := by
  simp only [toJson, Json.member_eq_present, Json.optional_eq_present, Json.unlessEmpty_eq_present,
    ← Json.present_append, List.cons_append, List.nil_append, slots]

/-- A well-formed operation is read back. -/
theorem Operation.reads {operation : Operation} (h : operation.WellFormed) :
    Reads Operation.decode operation.toJson operation.withoutNulls := by
  rw [toJson_eq]
  refine Reads.record rfl (by decide) fun fields hfields => ?_
  have hresponses : ∀ entry ∈ operation.responses, Reads Response.decode entry.2.toJson entry.2.withoutNulls :=
    fun entry hentry => Response.reads (h.response entry hentry) fun media hmedia =>
      h.schemas media.2 (.response hentry hmedia)
  rw [hfields.defaulted_list "tags" .str operation.tags (by simp [slots]) fun tag _ => Reads.text tag,
    hfields.optional_text "summary" operation.summary (by simp [slots]),
    hfields.optional_text "description" operation.description (by simp [slots]),
    hfields.required "operationId" (.str operation.operationId) (by simp [slots])
      (Reads.text operation.operationId),
    hfields.defaulted_list "parameters" Parameter.toJson operation.parameters (by simp [slots])
      fun parameter hparameter => Parameter.reads (h.schemas parameter.schema (.parameter hparameter)),
    hfields.optional_map "requestBody" RequestBody.toJson operation.requestBody (by simp [slots]) (fun _ => nofun)
      fun body hbody => RequestBody.reads (h.body body hbody) fun media hmedia =>
        h.schemas media.2 (.body hbody hmedia),
    hfields.required "responses" (.obj (operation.responses.map fun entry => (entry.1, entry.2.toJson)))
      (by simp [slots]) (reads_sortedMapOf h.responses hresponses),
    hfields.defaulted_list "security" requirementToJson operation.security (by simp [slots])
      fun requirement hrequirement => reads_requirement (h.security requirement hrequirement),
    hfields.optional_flag "deprecated" operation.deprecated (by simp [slots]), List.map_id', List.map_id']
  rfl

/-- The operations of a path without null literals. -/
def PathItem.withoutNulls (item : PathItem) : PathItem where
  get := item.get.map Operation.withoutNulls
  put := item.put.map Operation.withoutNulls
  post := item.post.map Operation.withoutNulls
  delete := item.delete.map Operation.withoutNulls
  options := item.options.map Operation.withoutNulls
  head := item.head.map Operation.withoutNulls
  patch := item.patch.map Operation.withoutNulls
  trace := item.trace.map Operation.withoutNulls

/-- A path item of well-formed operations is read back. -/
theorem PathItem.reads {item : PathItem}
    (h : ∀ method operation, item.operation? method = some operation → operation.WellFormed) :
    Reads PathItem.decode item.toJson item.withoutNulls := by
  have hslots : item.toJson = .obj (present [("get", item.get.map Operation.toJson),
      ("put", item.put.map Operation.toJson), ("post", item.post.map Operation.toJson),
      ("delete", item.delete.map Operation.toJson), ("options", item.options.map Operation.toJson),
      ("head", item.head.map Operation.toJson), ("patch", item.patch.map Operation.toJson),
      ("trace", item.trace.map Operation.toJson)]) := by
    simp only [toJson, Json.optional_eq_present, ← Json.present_append, List.cons_append, List.nil_append]
  rw [hslots]
  refine Reads.record rfl (by decide) fun fields hfields => ?_
  have hread (method : ApiScribe.Operation.Method) (name : String)
      (hslot : (name, (item.operation? method).map Operation.toJson) ∈ _) :
      fields.optional name Operation.decode = some ((item.operation? method).map Operation.withoutNulls) :=
    hfields.optional_map name Operation.toJson (item.operation? method) hslot (fun _ => nofun)
      fun operation hoperation => Operation.reads (h method operation hoperation)
  rw [hread .get "get" (by simp [operation?]), hread .put "put" (by simp [operation?]),
    hread .post "post" (by simp [operation?]), hread .delete "delete" (by simp [operation?]),
    hread .options "options" (by simp [operation?]), hread .head "head" (by simp [operation?]),
    hread .patch "patch" (by simp [operation?]), hread .trace "trace" (by simp [operation?])]
  rfl

/-- The components are read back. -/
theorem reads_components {schemas : List (String × Schema)} (hkeys : KeysAscend schemas)
    (h : ∀ entry ∈ schemas, entry.2.KeysDistinct) :
    Reads decodeComponents (.obj [("schemas", schemasToJson schemas)]) (schemasWithoutNulls schemas) := by
  change Reads decodeComponents (.obj (present [("schemas", some (schemasToJson schemas))])) _
  refine Reads.record rfl (by decide) fun fields hfields => ?_
  have hschemas := reads_sortedMapOf hkeys fun entry hentry => Schema.reads (h entry hentry)
  rw [← Schema.toJsonMembers_eq] at hschemas
  exact hfields.required "schemas" (schemasToJson schemas) (by simp) hschemas

/-- The maps of a document are maps: paths and components ascend by key, and so on in its operations and
schemas. -/
structure WellFormed (document : Document) : Prop where
  paths : KeysAscend document.paths
  components : ∀ schemas, document.components = some schemas → KeysAscend schemas
  operations : ∀ entry ∈ document.paths, ∀ method operation, entry.2.operation? method = some operation →
    operation.WellFormed
  schemas : ∀ schema, document.Shows schema → schema.KeysDistinct

/-- An example or default of a schema is null, anywhere in the document. -/
def ShowsNull (document : Document) : Prop := ∃ schema, document.Shows schema ∧ schema.ShowsNull

/-- The document without examples and defaults that are null. -/
def withoutNulls (document : Document) : Document :=
  { document with
    paths := document.paths.map fun entry => (entry.1, entry.2.withoutNulls)
    components := document.components.map schemasWithoutNulls }

/-- A well-formed document is read back, up to nulls in its schemas. -/
theorem reads {document : Document} (h : document.WellFormed) :
    Reads decode document.toJson document.withoutNulls := by
  let encodeComponents (schemas : List (String × Schema)) : Value := .obj [("schemas", schemasToJson schemas)]
  have hslots : document.toJson = .obj (present [("openapi", some (.str document.openapi)),
      ("info", some document.info.toJson), ("servers", listSlot (document.servers.map Server.toJson)),
      ("tags", listSlot (document.tags.map Tag.toJson)),
      ("paths", some (.obj (document.paths.map fun entry => (entry.1, entry.2.toJson)))),
      ("components", document.components.map encodeComponents)]) := by
    simp only [toJson, Json.member_eq_present, Json.optional_eq_present, Json.unlessEmpty_eq_present,
      ← Json.present_append, List.cons_append, List.nil_append, encodeComponents]
  rw [hslots]
  refine Reads.record rfl (by decide) fun fields hfields => ?_
  rw [hfields.required "openapi" (.str document.openapi) (by simp) (Reads.text document.openapi),
    hfields.required "info" document.info.toJson (by simp) document.info.reads,
    hfields.defaulted_list "servers" Server.toJson document.servers (by simp) fun server _ => server.reads,
    hfields.defaulted_list "tags" Tag.toJson document.tags (by simp) fun tag _ => tag.reads,
    hfields.required "paths" (.obj (document.paths.map fun entry => (entry.1, entry.2.toJson))) (by simp)
      (reads_sortedMapOf h.paths fun entry hentry => PathItem.reads (h.operations entry hentry)),
    hfields.optional_map "components" encodeComponents document.components (by simp) (fun _ => nofun)
      fun schemas hschemas => reads_components (h.components schemas hschemas) fun entry hentry =>
        h.schemas entry.2 (.component hschemas hentry),
    List.map_id', List.map_id']
  rfl

/-- Schemas without nulls stay as they are. -/
theorem schemasWithoutNulls_eq_self {schemas : List (String × Schema)}
    (h : ∀ entry ∈ schemas, ¬ entry.2.ShowsNull) : schemasWithoutNulls schemas = schemas :=
  Json.map_values_eq_self fun entry hentry => Schema.withoutNulls_eq_self (h entry hentry)

/-- An operation that shows no null stays as it is. -/
theorem Operation.withoutNulls_eq_self {operation : Operation}
    (h : ∀ schema, operation.Shows schema → ¬ schema.ShowsNull) : operation.withoutNulls = operation := by
  have hparameters : operation.parameters.map Parameter.withoutNulls = operation.parameters := by
    refine (List.map_congr_left fun parameter hparameter => ?_).trans (List.map_id' _)
    rw [Parameter.withoutNulls, Schema.withoutNulls_eq_self (h parameter.schema (.parameter hparameter))]
  have hbody : operation.requestBody.map RequestBody.withoutNulls = operation.requestBody := by
    refine (Option.map_congr fun body hbody => ?_).trans Option.map_id'
    rw [RequestBody.withoutNulls,
      schemasWithoutNulls_eq_self fun entry hentry => h entry.2 (.body hbody hentry)]
  have hresponses :
      operation.responses.map (fun entry => (entry.1, entry.2.withoutNulls)) = operation.responses := by
    refine Json.map_values_eq_self fun response hresponse => ?_
    rw [Response.withoutNulls,
      schemasWithoutNulls_eq_self fun entry hentry => h entry.2 (.response hresponse hentry)]
  rw [withoutNulls, hparameters, hbody, hresponses]

/-- A path item stays as it is if its operations do. -/
theorem PathItem.withoutNulls_eq_self {item : PathItem}
    (h : ∀ method operation, item.operation? method = some operation → operation.withoutNulls = operation) :
    item.withoutNulls = item := by
  have hsame (method : ApiScribe.Operation.Method) :
      (item.operation? method).map Operation.withoutNulls = item.operation? method :=
    (Option.map_congr fun operation hoperation => h method operation hoperation).trans Option.map_id'
  cases item
  rw [withoutNulls, PathItem.mk.injEq]
  exact ⟨hsame .get, hsame .put, hsame .post, hsame .delete, hsame .options,
    hsame .head, hsame .patch, hsame .trace⟩

/-- A document that shows no null stays as it is. -/
theorem withoutNulls_eq_self {document : Document} (h : ¬ document.ShowsNull) :
    document.withoutNulls = document := by
  have hschema (schema : Schema) (hshows : document.Shows schema) : ¬ schema.ShowsNull :=
    fun hnull => h ⟨schema, hshows, hnull⟩
  have hpaths : document.paths.map (fun entry => (entry.1, entry.2.withoutNulls)) = document.paths := by
    refine Json.map_values_eq_self fun entry hentry =>
      PathItem.withoutNulls_eq_self fun method operation hfound => ?_
    exact Operation.withoutNulls_eq_self fun schema hshows => hschema schema (.operation hentry hfound hshows)
  have hcomponents : document.components.map schemasWithoutNulls = document.components := by
    refine (Option.map_congr fun schemas hschemas => ?_).trans Option.map_id'
    exact schemasWithoutNulls_eq_self fun entry hentry => hschema entry.2 (.component hschemas hentry)
  rw [withoutNulls, hpaths, hcomponents]

/-- Decoding undoes encoding: the JSON of a document is read as the document without the examples and defaults that
are null, and as the very document if it has none of them. -/
theorem decode_toJson (document : Document) (h : document.WellFormed) :
    decode.ofValue? document.toJson = some document.withoutNulls ∧
      (¬ document.ShowsNull → decode.ofValue? document.toJson = some document) := by
  have hread : decode.ofValue? document.toJson = some document.withoutNulls := (reads h).ofValue?
  exact ⟨hread, fun hnull => by rw [hread, withoutNulls_eq_self hnull]⟩

/-- A name, with an example and a default that may be given. -/
def nameSchema (literal : Option Value) : Schema :=
  { kind := some .string, sample := literal, default := literal }

/-- A pet has a name. -/
def petSchema (literal : Option Value) : Schema :=
  { kind := some .object, properties := [("name", nameSchema literal)], required := ["name"] }

/-- A document with pets as a component and an operation that creates them. -/
def petDocument (literal : Option Value) : Document where
  openapi := "3.0.3"
  info := { title := "Pets", version := "1" }
  paths := [("/pets", { post := some {
    tags := ["pets"]
    operationId := "create"
    parameters := [{ name := "owner", location := .query, required := false, schema := nameSchema literal }]
    requestBody := some { required := true, content := [("application/json", Schema.referenceTo "Pet")] }
    responses := [("201", { description := "Created" }), ("400", { description := "Refused" })]
    security := [[("key", []), ("login", ["write"])]] } })]
  components := some [("Pet", petSchema literal)]

/-- The only schema inside the schema of a pet is that of its name. -/
theorem inside_petSchema {literal : Option Value} {inner : Schema} (h : (petSchema literal).Inside inner) :
    inner = nameSchema literal := by
  cases h with
  | items h | additional h | member h => cases h
  | property h => exact congrArg Prod.snd (List.mem_singleton.mp h)

/-- What the document of a pet shows. -/
theorem shows_petDocument {literal : Option Value} {schema : Schema} (h : (petDocument literal).Shows schema) :
    schema = petSchema literal ∨ schema = nameSchema literal ∨ schema = Schema.referenceTo "Pet" := by
  cases h with
  | component h hschema =>
    cases h
    exact .inl (congrArg Prod.snd (List.mem_singleton.mp hschema))
  | @operation path item method operation schema hitem hoperation hschema =>
    cases List.mem_singleton.mp hitem
    cases method <;> cases hoperation
    cases hschema with
    | parameter h => exact .inr (.inl (congrArg Parameter.schema (List.mem_singleton.mp h)))
    | body h hschema =>
      cases h
      exact .inr (.inr (congrArg Prod.snd (List.mem_singleton.mp hschema)))
    | response h hschema =>
      rcases List.mem_pair.mp h with h | h <;> cases h <;> cases hschema

/-- The document of a pet is well formed. -/
theorem petDocument_wellFormed {literal : Option Value} (h : ∀ value, literal = some value → value.KeysDistinct) :
    (petDocument literal).WellFormed := by
  have hname : (nameSchema literal).KeysDistinct :=
    .mk nofun h h .nil fun _ hinside => by cases hinside <;> contradiction
  have hschemas (schema : Schema) (hshows : (petDocument literal).Shows schema) : schema.KeysDistinct := by
    rcases shows_petDocument hshows with rfl | rfl | rfl
    · exact .mk nofun nofun nofun (List.nodup_singleton "name") fun _ hinside => inside_petSchema hinside ▸ hname
    · exact hname
    · exact .mk nofun nofun nofun .nil fun _ hinside => by cases hinside <;> contradiction
  refine ⟨List.pairwise_singleton _ _, fun _ hcomponents => ?_, fun entry hentry method operation hoperation => ?_,
    hschemas⟩
  · cases hcomponents
    exact List.pairwise_singleton _ _
  · have hshows (schema : Schema) (hshows : operation.Shows schema) : schema.KeysDistinct :=
      hschemas schema (.operation hentry hoperation hshows)
    cases List.mem_singleton.mp hentry
    cases method <;> cases hoperation
    refine ⟨fun _ hbody => ?_, ?_, fun entry hentry => ?_, fun requirement hrequirement => ?_, hshows⟩
    · cases hbody
      exact List.nodup_singleton _
    · exact List.pairwise_pair.mpr (by decide)
    · rcases List.mem_pair.mp hentry with rfl | rfl <;> exact .nil
    · cases List.mem_singleton.mp hrequirement
      decide

/-- The document of a pet without a literal shows no null. -/
theorem petDocument_not_showsNull : ¬ (petDocument none).ShowsNull := by
  rintro ⟨schema, hshows, hnull⟩
  have hname : ¬ (nameSchema none).ShowsNull := by
    intro hnull
    cases hnull with
    | sample h | default h => cases h
    | inside h => cases h <;> contradiction
  rcases shows_petDocument hshows with rfl | rfl | rfl
  · cases hnull with
    | sample h | default h => cases h
    | inside h hinner => exact hname (inside_petSchema h ▸ hinner)
  · exact hname hnull
  · cases hnull with
    | sample h | default h => cases h
    | inside h => cases h <;> contradiction

/-- Null as example and default of the name is lost, at both places of the name; the document without is read back
as it is. -/
theorem decode_toJson_petDocument :
    decode.ofValue? (petDocument (some .null)).toJson = some (petDocument none) ∧
      decode.ofValue? (petDocument none).toJson = some (petDocument none) := by
  constructor
  · exact (decode_toJson (petDocument (some .null)) (petDocument_wellFormed fun _ h => by cases h; trivial)).1
  · exact (decode_toJson (petDocument none) (petDocument_wellFormed nofun)).2 petDocument_not_showsNull

end Document

end ApiScribe
