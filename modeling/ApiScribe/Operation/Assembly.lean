import ApiScribe.Comment.Operation
import ApiScribe.Document.Basic
import ApiScribe.Operation.Route
import ApiScribe.Schema.Synthesis

/-!
# Assembling operations

A function with a documented verb, path and id becomes an operation. What its owner's comment says
stands in for what its own comment leaves out: base path, tags, summary, security, deprecation. An
owner with a name is also a tag of the document.
-/

namespace ApiScribe

namespace Registry

/-- The findings reported so far, and the registry without them. -/
def takeFindings (registry : Registry) : List Finding × Registry :=
  (registry.findings, { registry with resolver := { registry.resolver with findings := [] } })

end Registry

namespace Operation

/-- An operation with the path and method it is bound to. -/
structure Bound where
  method : Method
  path : String
  operation : Document.Operation
deriving Repr

/-- Whether a finding came up while building schemas or while assembling operations. -/
inductive Origin where
  | schemas | operations
deriving DecidableEq, Repr

/-- What is kept from one operation to the next. -/
structure Assembler where
  registry : Registry
  /-- The owners' comments read so far, by module, name and comment. -/
  owners : List ((ModulePath × String × List String) × Comment.Container) := []
  /-- The tags of named owners, in the order in which they were found. -/
  tags : List Document.Tag := []
  /-- Everything reported, in order. -/
  journal : List (Origin × Finding) := []

/-- An action that assembles. -/
abbrev Assembling := StateM Assembler

/-- Report findings about an operation. -/
def note (findings : List Finding) : Assembling Unit :=
  modify fun assembler =>
    { assembler with journal := assembler.journal ++ findings.map fun finding => (Origin.operations, finding) }

/-- Report one finding about an operation. -/
def complain (subject : String) (cause : Cause) : Assembling Unit := note [⟨subject, cause⟩]

/-- Work on the registry; what it reports goes into the journal. -/
def onRegistry {α : Type} (action : StateM Registry α) : Assembling α := do
  let assembler ← get
  let (result, registry) := action.run assembler.registry
  let (findings, registry) := registry.takeFindings
  set { assembler with
    registry
    journal := assembler.journal ++ findings.map fun finding => (Origin.schemas, finding) }
  return result

/-- Whether a declaration is a trait. -/
def isTrait (table : Table) (name : QualifiedName) : Bool :=
  match table.get? name with
  | some declaration => declaration.shape.isInterface
  | none => false

/-- Add the tag of a named owner, unless there is one of this name. -/
def addOwnerTag (container : Comment.Container) : Assembling Unit :=
  modify fun assembler =>
    match container.name with
    | none => assembler
    | some name =>
      if assembler.tags.any fun tag => tag.name = name then assembler
      else { assembler with
        tags := assembler.tags ++ [⟨name, container.description, container.externalDocs⟩] }

/-- What the comment of an owner says. Traits are declarations, so the registry reads theirs. -/
def ownerComment (owner : Owner) (module : ModulePath) : Assembling Comment.Container := do
  let key := (module, owner.name, owner.docs)
  match (← get).owners.find? fun entry => entry.1 = key with
  | some (_, known) => return known
  | none =>
    let declared : QualifiedName := ⟨module, owner.name⟩
    let record ←
      if isTrait (← get).registry.table declared then onRegistry (Registry.container declared)
      else do
        let (record, findings) := Comment.Container.read owner.docs declared.display
        note findings
        pure record
    addOwnerTag record
    modify fun assembler => { assembler with owners := (key, record) :: assembler.owners }
    return record

/-- The parameters that a comment declares; those that make no sense are reported and left out. -/
def declaredParameters (subject : String) : List Comment.Param → Assembling (List Document.Parameter)
  | [] => return []
  | param :: rest => do
    match Location.ofWritten? param.location, Primitive.ofParameterType? param.typeName with
    | none, _ =>
      complain subject (.parameterDropped param.name (.unknownLocation param.location))
      declaredParameters subject rest
    | some _, none =>
      complain subject (.parameterDropped param.name (.notPrimitive param.typeName))
      declaredParameters subject rest
    | some location, some primitive =>
      if location = .path && !param.required then
        complain subject (.optionalPathParameter param.name)
      let parameter : Document.Parameter :=
        { name := param.name
          location
          description := param.description
          required := param.required || location = .path
          schema := Schema.ofPrimitive primitive }
      return parameter :: (← declaredParameters subject rest)

/-- The path parameters of a template that are not declared. -/
def undeclaredParameters (declared : List Document.Parameter) (path : String) :
    List Document.Parameter :=
  let missing := (templateParameters path).filter fun name =>
    !declared.any fun parameter => parameter.location = .path && parameter.name = name
  missing.map fun name =>
    { name, location := .path, required := true, schema := Schema.ofPrimitive .string }

/-- The parameters of an operation. -/
def parameters (params : List Comment.Param) (path subject : String) :
    Assembling (List Document.Parameter) := do
  let declared ← declaredParameters subject params
  return declared ++ undeclaredParameters declared path

/-- The media type of operations that name none. -/
def defaultMediaType : String := "application/json"

/-- One schema under every media type. -/
def mediaContent (mediaTypes : List String) (schema : Schema) : Document.Content :=
  let mediaTypes := if mediaTypes.isEmpty then [defaultMediaType] else mediaTypes
  Json.insertAll (mediaTypes.map fun media => (media, schema))

/-- The request body of an operation. -/
def requestBody (record : Comment.Operation) (module : ModulePath) (subject : String) :
    Assembling (Option Document.RequestBody) := do
  match record.body with
  | none => return none
  | some body =>
    match ← onRegistry (Registry.referenceFor body.typeName module) with
    | .ok schema =>
      return some ⟨body.description, true, mediaContent record.consumes schema⟩
    | .error fault =>
      complain subject (.bodyDropped fault)
      return none

/-- The content of a response. -/
def responseContent (response : Comment.Response) (produces : List String) (module : ModulePath)
    (subject : String) : Assembling Document.Content := do
  match response.typeName with
  | none => return []
  | some typeName =>
    match ← onRegistry (Registry.referenceFor typeName module) with
    | .ok schema => return mediaContent produces schema
    | .error fault =>
      complain subject (.responseWithoutContent response.status fault)
      return []

/-- The declared responses of an operation, sorted by status; of a repeated one the last counts. -/
def declaredResponses (produces : List String) (module : ModulePath) (subject : String) :
    List (String × Document.Response) → List Comment.Response →
      Assembling (List (String × Document.Response))
  | sorted, [] => return sorted
  | sorted, response :: rest => do
    let content ← responseContent response produces module subject
    let description := response.description.getD (reasonPhrase response.status)
    if (Json.lookup response.status sorted).isSome then
      complain subject (.repeatedResponse response.status)
    declaredResponses produces module subject
      (Text.insertSorted Text.compareText response.status ⟨description, content⟩ sorted) rest

/-- The responses of an operation; one that declares none just succeeds. -/
def responses (record : Comment.Operation) (module : ModulePath) (subject : String) :
    Assembling (List (String × Document.Response)) := do
  let declared ← declaredResponses record.produces module subject [] record.responses
  return if declared.isEmpty then [("200", ⟨reasonPhrase "200", []⟩)] else declared

/-- What a comment leaves out although every operation needs it. -/
def missingParts (record : Comment.Operation) : List String :=
  (if record.method.isNone then ["verb"] else []) ++ (if record.path.isNone then ["path"] else []) ++
    if record.operationId.isNone then ["operation id"] else []

/-- The tags of an operation: its own, else its owner's, else its owner's name. -/
def tagsOf (record : Comment.Operation) (owner : Comment.Container) : List String :=
  if !record.tags.isEmpty then record.tags
  else if !owner.tags.isEmpty then owner.tags
  else owner.name.toList

/-- The security requirements of an operation: its own, else its owner's. -/
def securityOf (record : Comment.Operation) (owner : Comment.Container) :
    List (List (String × List String)) :=
  (if record.security.isEmpty then owner.security else record.security).map fun requirement =>
    [(requirement.scheme, requirement.scopes)]

/-- Assemble one operation; `none` when its verb, path or id is missing, which is reported. -/
def assemble (candidate : Candidate) : Assembling (Option Bound) := do
  let subject := candidate.subject
  let (record, findings) := Comment.Operation.read candidate.docs subject
  note findings
  let owner ←
    match candidate.owner with
    | some owner => ownerComment owner candidate.module
    | none => pure {}
  match record.method, record.path, record.operationId with
  | some verb, some route, some operationId =>
    match Method.ofVerb? verb with
    | none =>
      complain subject (.unknownVerb verb)
      return none
    | some method =>
      let path := joinPath owner.basePath route
      let parameters ← parameters record.params path subject
      let requestBody ← requestBody record candidate.module subject
      let responses ← responses record candidate.module subject
      let operation : Document.Operation :=
        { tags := tagsOf record owner
          summary := record.summary.or owner.summary
          description := record.description
          operationId, parameters, requestBody, responses
          security := securityOf record owner
          deprecated := record.deprecated.or owner.deprecated }
      return some ⟨method, path, operation⟩
  | _, _, _ =>
    complain subject (.operationIncomplete (missingParts record))
    return none

/-- Assemble operations in order, without those that are dropped. -/
def assembleAll : List Candidate → Assembling (List Bound)
  | [] => return []
  | candidate :: rest => do
    let first ← assemble candidate
    let others ← assembleAll rest
    return first.toList ++ others

end Operation

end ApiScribe
