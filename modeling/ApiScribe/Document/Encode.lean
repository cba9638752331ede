import ApiScribe.Document.Basic
import ApiScribe.Schema.Encode

/-!
# The document as JSON
-/

namespace ApiScribe

open Json (Value member optional unlessEmpty unlessEmptyObject)

namespace Document

/-- A contact as JSON. -/
def Contact.toJson (contact : Contact) : Value :=
  .obj (optional "name" .str contact.name ++ optional "url" .str contact.url ++
    optional "email" .str contact.email)

/-- A licence as JSON. -/
def License.toJson (license : License) : Value :=
  .obj (member "name" (.str license.name) ++ optional "url" .str license.url)

/-- The document's information as JSON. -/
def Info.toJson (info : Info) : Value :=
  .obj (member "title" (.str info.title) ++ optional "description" .str info.description ++
    optional "termsOfService" .str info.termsOfService ++ optional "contact" Contact.toJson info.contact ++
    optional "license" License.toJson info.license ++ member "version" (.str info.version))

/-- A server as JSON. -/
def Server.toJson (server : Server) : Value :=
  .obj (member "url" (.str server.url) ++ optional "description" .str server.description)

/-- A tag as JSON. -/
def Tag.toJson (tag : Tag) : Value :=
  .obj (member "name" (.str tag.name) ++ optional "description" .str tag.description ++
    optional "externalDocs" Comment.ExternalDocs.toJson tag.externalDocs)

/-- A parameter as JSON. -/
def Parameter.toJson (parameter : Parameter) : Value :=
  .obj (member "name" (.str parameter.name) ++ member "in" (.str parameter.location.name) ++
    optional "description" .str parameter.description ++ member "required" (.bool parameter.required) ++
    member "schema" parameter.schema.toJson)

/-- The members of schemas by media type. -/
def contentMembers (content : Content) : List (String × Value) :=
  content.map fun entry => (entry.1, .obj [("schema", entry.2.toJson)])

/-- A request body as JSON. -/
def RequestBody.toJson (body : RequestBody) : Value :=
  .obj (optional "description" .str body.description ++ member "required" (.bool body.required) ++
    member "content" (.obj (contentMembers body.content)))

/-- A response as JSON. -/
def Response.toJson (response : Response) : Value :=
  .obj (member "description" (.str response.description) ++
    unlessEmptyObject "content" (contentMembers response.content))

/-- A security requirement as JSON. -/
def requirementToJson (requirement : List (String × List String)) : Value :=
  .obj (requirement.map fun entry => (entry.1, .arr (entry.2.map .str)))

/-- An operation as JSON. -/
def Operation.toJson (operation : Operation) : Value :=
  .obj (unlessEmpty "tags" (operation.tags.map .str) ++ optional "summary" .str operation.summary ++
    optional "description" .str operation.description ++ member "operationId" (.str operation.operationId) ++
    unlessEmpty "parameters" (operation.parameters.map Parameter.toJson) ++
    optional "requestBody" RequestBody.toJson operation.requestBody ++
    member "responses" (.obj (operation.responses.map fun entry => (entry.1, entry.2.toJson))) ++
    unlessEmpty "security" (operation.security.map requirementToJson) ++
    optional "deprecated" .bool operation.deprecated)

/-- The operations of a path as JSON. -/
def PathItem.toJson (item : PathItem) : Value :=
  .obj (optional "get" Operation.toJson item.get ++ optional "put" Operation.toJson item.put ++
    optional "post" Operation.toJson item.post ++ optional "delete" Operation.toJson item.delete ++
    optional "options" Operation.toJson item.options ++ optional "head" Operation.toJson item.head ++
    optional "patch" Operation.toJson item.patch ++ optional "trace" Operation.toJson item.trace)

/-- Component schemas as JSON. -/
def schemasToJson (schemas : List (String × Schema)) : Value :=
  .obj (Schema.toJsonMembers schemas)

/-- The document as JSON. -/
def toJson (document : Document) : Value :=
  .obj (member "openapi" (.str document.openapi) ++ member "info" document.info.toJson ++
    unlessEmpty "servers" (document.servers.map Server.toJson) ++
    unlessEmpty "tags" (document.tags.map Tag.toJson) ++
    member "paths" (.obj (document.paths.map fun entry => (entry.1, entry.2.toJson))) ++
    optional "components" (fun schemas => .obj [("schemas", schemasToJson schemas)]) document.components)

end Document

end ApiScribe
