import ApiScribe.Comment.Document
import ApiScribe.Operation.Assembly

/-!
# Building the document

The builder gathers metadata, tags and operations. A second operation under a path and method replaces
the first; an operation id that another operation still has is reported. A tag that is there already
only gains details that it lacks.
-/

namespace ApiScribe

open Operation (Method Bound)

/-- The document under construction. -/
structure Builder where
  openapi : String := "3.0.3"
  info : Document.Info := { title := "Generated API", version := "1.0.0" }
  servers : List Document.Server := []
  tags : List Document.Tag := []
  /-- Sorted by path. -/
  paths : List (String × Document.PathItem) := []
  /-- The place of the operation that has an id. -/
  operationIds : List (String × (String × Method)) := []

namespace Builder

/-- Fill in the details that a tag lacks. -/
def fillTag (existing offered : Document.Tag) : Document.Tag :=
  { existing with
    description := existing.description.or offered.description
    externalDocs := existing.externalDocs.or offered.externalDocs }

/-- Add a tag to a list; one of the same name only gains details. -/
def addTagTo (tag : Document.Tag) : List Document.Tag → List Document.Tag
  | [] => [tag]
  | existing :: rest =>
    if existing.name = tag.name then fillTag existing tag :: rest else existing :: addTagTo tag rest

/-- Add a tag. -/
def addTag (builder : Builder) (tag : Document.Tag) : Builder :=
  { builder with tags := addTagTo tag builder.tags }

/-- The contact in the metadata, unless nothing is said about it. -/
def contactOf (metadata : Comment.Document) : Option Document.Contact :=
  let contact : Document.Contact :=
    ⟨metadata.contactName, metadata.contactUrl, metadata.contactEmail⟩
  if contact = {} then none else some contact

/-- The licence in the metadata, which needs a name. -/
def licenseOf (metadata : Comment.Document) : Option Document.License :=
  metadata.licenseName.map fun name => ⟨name, metadata.licenseUrl⟩

/-- Apply metadata; what it leaves out stays. -/
def withMetadata (builder : Builder) (metadata : Comment.Document) : Builder :=
  let info := builder.info
  let described : Builder :=
    { builder with
      openapi := metadata.openapiVersion.getD builder.openapi
      info :=
        { title := metadata.title.getD info.title
          description := metadata.description.or info.description
          termsOfService := metadata.termsOfService.or info.termsOfService
          contact := (contactOf metadata).or info.contact
          license := (licenseOf metadata).or info.license
          version := metadata.version.getD info.version }
      servers := builder.servers ++ metadata.servers.map fun server => ⟨server.url, server.description⟩ }
  metadata.tags.foldl (fun builder tag => builder.addTag ⟨tag.name, tag.description, none⟩) described

/-- The operation that was stored under a path and method before. -/
def previous? (builder : Builder) (path : String) (method : Method) : Option Document.Operation :=
  (Json.lookup path builder.paths).bind fun item => item.operation? method

/-- Forget an operation id if it belongs to a place. -/
def release (id : String) (place : String × Method) (ids : List (String × (String × Method))) :
    List (String × (String × Method)) :=
  ids.filter fun entry => !(entry.1 = id && entry.2 = place)

/-- Add an operation; what it replaces and whose id it shares is reported. -/
def addOperation (builder : Builder) (bound : Bound) : Builder × List Finding :=
  let place := (bound.path, bound.method)
  let id := bound.operation.operationId
  let item := (Json.lookup bound.path builder.paths).getD {}
  let paths := Text.insertSorted Text.compareText bound.path (item.set bound.method bound.operation)
    builder.paths
  let (ids, replaced) : List (String × (String × Method)) × List Finding :=
    match builder.previous? bound.path bound.method with
    | some previous =>
      (release previous.operationId place builder.operationIds,
        [⟨id, .operationOverwritten bound.method.verb bound.path previous.operationId⟩])
    | none => (builder.operationIds, [])
  let shared : List Finding :=
    match Json.lookup id ids with
    | some (path, method) => [⟨id, .operationIdReused method.verb path⟩]
    | none => []
  ({ builder with paths, operationIds := Json.insert id place ids }, replaced ++ shared)

/-- Add operations in order. -/
def addOperations (builder : Builder) : List Bound → Builder × List Finding
  | [] => (builder, [])
  | bound :: rest =>
    let (builder, findings) := builder.addOperation bound
    let (builder, more) := builder.addOperations rest
    (builder, findings ++ more)

/-- The finished document with the given component schemas. -/
def build (builder : Builder) (schemas : List (String × Schema)) : Document :=
  { openapi := builder.openapi
    info := builder.info
    servers := builder.servers
    tags := builder.tags
    paths := builder.paths
    components := if schemas.isEmpty then none else some schemas }

end Builder

end ApiScribe
