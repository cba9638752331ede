import ApiScribe.Comment.Document
import ApiScribe.Comment.Field
import ApiScribe.Comment.Operation
import ApiScribe.Proofs.Rearrangement
import ApiScribe.Proofs.Text.Cutting
import Mathlib.Data.List.Forall2
import Mathlib.Data.List.Induction

/-!
# Records of a comment, field by field

A record is folded from the directives of a comment. A directive may write several fields, and several directives
may write one field. Here every field is given on its own: a text is the last one that is given and not blank, a
list has the items of all directives in order. So the order of directives matters only within a field.
-/

namespace ApiScribe.Comment

namespace Directive

/-- The trimmed argument of a directive with one of the names, unless nothing is left of it. -/
def textOf? (names : List String) (directive : Directive) : Option String :=
  if directive.key ∈ names && Text.trim directive.argument != "" then some (Text.trim directive.argument) else none

/-- The trimmed argument without its quotes of a directive with one of the names, unless nothing is left of it. -/
def unquotedOf? (names : List String) (directive : Directive) : Option String :=
  if directive.key ∈ names && Text.trim (unquote directive.argument) != "" then
    some (Text.trim (unquote directive.argument))
  else none

/-- The items in the argument of a directive with one of the names. -/
def itemsOf {α : Type} (names : List String) (read : String → List α) (directive : Directive) : List α :=
  if directive.key ∈ names then read directive.argument else []

/-- The names that a directive adds to the tags of a type or an operation. -/
def tagNames (directive : Directive) : List String :=
  directive.itemsOf ["tags"] commaList ++ (directive.textOf? ["tag"]).toList

/-- The security requirement that a directive adds. -/
def security (directive : Directive) : List SecurityRequirement :=
  directive.itemsOf ["security"] fun argument => (SecurityRequirement.ofArgument? argument).toList

/-- The name that a directive gives to a type: the first word after `schema`, or the text after `name`. -/
def containerName? (directive : Directive) : Option String :=
  if directive.key = "schema" then (Text.words directive.argument).head? else directive.textOf? ["name"]

/-- Verb, path and id, when they are written together in exactly three words. -/
def triple? (directive : Directive) : Option (String × String × String) :=
  if directive.key = "operation" then
    match Text.words directive.argument with
    | [verb, path, id] => some (verb, path, id)
    | _ => none
  else none

/-- The verb that a directive gives. -/
def verb? (directive : Directive) : Option String :=
  (directive.triple?.map fun triple => triple.1).or (directive.textOf? ["method"])

/-- The path that a directive gives. -/
def path? (directive : Directive) : Option String :=
  (directive.triple?.map fun triple => triple.2.1).or (directive.textOf? ["route", "path"])

/-- The operation id that a directive gives. -/
def operationId? (directive : Directive) : Option String :=
  (directive.triple?.map fun triple => triple.2.2).or (directive.textOf? ["id", "operationid"])

/-- The request body that a directive gives. -/
def body? (directive : Directive) : Option Body :=
  if directive.key = "body" then Body.ofArgument? directive.argument else none

/-- The response that a directive adds. -/
def responses (directive : Directive) : List Response :=
  directive.itemsOf ["response", "success", "failure"] fun argument => [Response.ofArgument argument]

/-- The parameter that a directive adds, unless it is malformed. -/
def params (directive : Directive) : List Param :=
  directive.itemsOf ["param", "parameter"] fun argument => (Param.ofArgument argument).toOption.toList

/-- The key of an `info` directive. -/
def infoKey? (directive : Directive) : Option InfoKey :=
  if directive.key = "info" then InfoKey.ofName? (splitInfo directive.argument).1 else none

/-- The trimmed text that an `info` directive gives under a key, unless nothing is left of it. -/
def infoText? (key : InfoKey) (directive : Directive) : Option String :=
  let value := Text.trim (splitInfo directive.argument).2
  if directive.infoKey? = some key && value != "" then some value else none

/-- The directive replaces the servers read so far. -/
def replacesServers (directive : Directive) : Bool := directive.infoKey? = some .servers

/-- The servers in the value of an `info` directive. -/
def infoServers (directive : Directive) : List Server :=
  (blankList (splitInfo directive.argument).2).map fun url => ⟨url, none⟩

/-- The server that a directive adds. -/
def server? (directive : Directive) : Option Server :=
  let (url, description) := splitDescription directive.argument
  if directive.key = "server" && url != "" then some ⟨url, description⟩ else none

/-- The tag that a directive adds to a document. -/
def documentTag? (directive : Directive) : Option Tag :=
  let (name, description) := splitDescription directive.argument
  if directive.key = "tag" && name != "" then some ⟨name, description⟩ else none

end Directive

/-- A text that is not blank comes before the one that was there. -/
theorem setText_eq_or (before : Option String) (value : String) :
    setText before value = (if Text.trim value = "" then none else some (Text.trim value)).or before := by
  unfold setText
  split <;> simp_all

/-- A text that is not blank is added to the items. -/
theorem addText_eq (items : List String) (value : String) :
    addText items value = items ++ (if Text.trim value = "" then none else some (Text.trim value)).toList := by
  unfold addText
  split <;> simp_all

/-- The last text that directives give. -/
def lastGiven (given : Directive → Option String) (directives : List Directive) : Option String :=
  (directives.filterMap given).getLast?

/-- The last directive decides if it gives a text. -/
theorem lastGiven_concat (given : Directive → Option String) (directives : List Directive) (directive : Directive) :
    lastGiven given (directives ++ [directive]) = (given directive).or (lastGiven given directives) := by
  simp [lastGiven, List.filterMap_append]

/-- What the last directive with the name reads as. -/
def lastRead {α : Type} (name : String) (read : String → Option α) (directives : List Directive) : Option α :=
  (directives.filter (·.key = name)).getLast?.bind fun directive => read directive.argument

/-- The last directive decides if it has the name. -/
theorem lastRead_concat {α : Type} (name : String) (read : String → Option α) (directives : List Directive)
    (directive : Directive) :
    lastRead name read (directives ++ [directive]) =
      if directive.key = name then read directive.argument else lastRead name read directives := by
  unfold lastRead
  split <;> simp [*]

namespace Container

/-- What one directive makes of each field. -/
theorem take_eq (record : Container) (directive : Directive) :
    record.take directive =
      { schema := record.schema || directive.key = "schema"
        name := directive.containerName?.or record.name
        xmlName := (directive.textOf? ["xml"]).or record.xmlName
        description := (directive.textOf? ["description"]).or record.description
        externalDocs :=
          if directive.key = "externaldocs" then ExternalDocs.ofArgument? directive.argument
          else record.externalDocs
        basePath := (directive.textOf? ["path", "basepath"]).or record.basePath
        tags := record.tags ++ directive.tagNames
        summary := (directive.textOf? ["summary"]).or record.summary
        security := record.security ++ directive.security
        deprecated := if directive.key = "deprecated" then readFlag directive.argument
          else record.deprecated } := by
  simp only [take, Directive.containerName?, Directive.textOf?, Directive.tagNames, Directive.security,
    Directive.itemsOf]
  fun_cases ContainerKey.ofName? directive.key
  -- The name of no key: the mismatches are hypotheses, and `simp` alone does not take them as negations.
  case case13 => simp_all
  all_goals simp [enter, setText_eq_or, addText_eq]

/-- The record of a comment, every field on its own. -/
def gathered (block : CommentBlock) : Container where
  schema := block.directives.any (·.key = "schema")
  name := lastGiven (·.containerName?) block.directives
  xmlName := lastGiven (·.textOf? ["xml"]) block.directives
  description := (lastGiven (·.textOf? ["description"]) block.directives).or block.plainText
  externalDocs := lastRead "externaldocs" ExternalDocs.ofArgument? block.directives
  basePath := lastGiven (·.textOf? ["path", "basepath"]) block.directives
  tags := block.directives.flatMap (·.tagNames)
  summary := lastGiven (·.textOf? ["summary"]) block.directives
  security := block.directives.flatMap (·.security)
  deprecated := lastRead "deprecated" readFlag block.directives

/-- Taking all directives gives every field on its own. -/
theorem foldl_take (directives : List Directive) : directives.foldl take {} = gathered ⟨directives, none⟩ := by
  induction directives using List.reverseRecOn with
  | nil => rfl
  | append_singleton directives directive ih =>
    -- From the end, since the directive taken last decides each text.
    rw [List.foldl_append, ih]
    simp [take_eq, gathered, lastGiven_concat, lastRead_concat]

/-- The record of a type has every field on its own. -/
theorem ofBlock_eq_gathered (block : CommentBlock) : ofBlock block = gathered block := by
  simp [ofBlock, foldl_take, gathered]

/-- The fields of the record. -/
def fields : List (Projection Container) :=
  [⟨_, schema⟩, ⟨_, name⟩, ⟨_, xmlName⟩, ⟨_, description⟩, ⟨_, externalDocs⟩, ⟨_, basePath⟩, ⟨_, tags⟩,
    ⟨_, summary⟩, ⟨_, security⟩, ⟨_, deprecated⟩]

end Container

namespace Field

/-- What one directive makes of each field. -/
theorem take_eq (record : Field) (directive : Directive) :
    record.take directive =
      { name := (directive.unquotedOf? ["name"]).or record.name
        description := (directive.textOf? ["description"]).or record.description
        sample := (directive.unquotedOf? ["example"]).or record.sample
        default := (directive.unquotedOf? ["default"]).or record.default
        format := (directive.unquotedOf? ["format"]).or record.format
        nullable := if directive.key = "nullable" then readFlag directive.argument else record.nullable
        deprecated := if directive.key = "deprecated" then readFlag directive.argument else record.deprecated
        enumValues := record.enumValues ++ directive.itemsOf ["enum"] commaList
        oneOf := record.oneOf ++ directive.itemsOf ["oneof"] blankList } := by
  simp only [take, Directive.unquotedOf?, Directive.textOf?, Directive.itemsOf]
  fun_cases FieldKey.ofName? directive.key
  case case10 => simp_all
  all_goals simp [enter, setText_eq_or]

/-- The record of a comment, every field on its own. -/
def gathered (block : CommentBlock) : Field where
  name := lastGiven (·.unquotedOf? ["name"]) block.directives
  description := (lastGiven (·.textOf? ["description"]) block.directives).or block.plainText
  sample := lastGiven (·.unquotedOf? ["example"]) block.directives
  default := lastGiven (·.unquotedOf? ["default"]) block.directives
  format := lastGiven (·.unquotedOf? ["format"]) block.directives
  nullable := lastRead "nullable" readFlag block.directives
  deprecated := lastRead "deprecated" readFlag block.directives
  enumValues := block.directives.flatMap (·.itemsOf ["enum"] commaList)
  oneOf := block.directives.flatMap (·.itemsOf ["oneof"] blankList)

/-- Taking all directives gives every field on its own. -/
theorem foldl_take (directives : List Directive) : directives.foldl take {} = gathered ⟨directives, none⟩ := by
  induction directives using List.reverseRecOn with
  | nil => rfl
  | append_singleton directives directive ih =>
    rw [List.foldl_append, ih]
    simp [take_eq, gathered, lastGiven_concat, lastRead_concat]

/-- The record of a field has every field on its own. -/
theorem ofBlock_eq_gathered (block : CommentBlock) : ofBlock block = gathered block := by
  simp [ofBlock, foldl_take, gathered]

/-- The fields of the record. -/
def fields : List (Projection Field) :=
  [⟨_, name⟩, ⟨_, description⟩, ⟨_, sample⟩, ⟨_, Field.default⟩, ⟨_, format⟩, ⟨_, nullable⟩, ⟨_, deprecated⟩,
    ⟨_, enumValues⟩, ⟨_, oneOf⟩]

end Field

namespace Operation

/-- What one directive makes of each field. -/
theorem take_eq (record : Operation) (directive : Directive) :
    record.take directive =
      { method := directive.verb?.or record.method
        path := directive.path?.or record.path
        operationId := directive.operationId?.or record.operationId
        summary := (directive.textOf? ["summary"]).or record.summary
        description := (directive.textOf? ["description"]).or record.description
        tags := record.tags ++ directive.tagNames
        consumes := record.consumes ++ directive.itemsOf ["consumes"] blankList
        produces := record.produces ++ directive.itemsOf ["produces"] blankList
        body := directive.body?.or record.body
        responses := record.responses ++ directive.responses
        params := record.params ++ directive.params
        security := record.security ++ directive.security
        deprecated := if directive.key = "deprecated" then readFlag directive.argument
          else record.deprecated } := by
  simp only [take, Directive.verb?, Directive.path?, Directive.operationId?, Directive.triple?, Directive.textOf?,
    Directive.tagNames, Directive.body?, Directive.responses, Directive.params, Directive.security,
    Directive.itemsOf]
  fun_cases OperationKey.ofName? directive.key
  case case21 => simp_all
  case case1 =>
    -- `operation` writes three fields at once, but only with three words.
    simp only [enter]
    generalize Text.words directive.argument = words
    split <;> simp
  case case19 | case20 =>
    simp only [enter]
    cases Param.ofArgument directive.argument <;> simp [Except.toOption]
  all_goals simp [enter, setText_eq_or, addText_eq]

/-- The record of a comment, every field on its own. -/
def gathered (block : CommentBlock) : Operation where
  method := lastGiven (·.verb?) block.directives
  path := lastGiven (·.path?) block.directives
  operationId := lastGiven (·.operationId?) block.directives
  summary := (lastGiven (·.textOf? ["summary"]) block.directives).or block.plainText
  description := lastGiven (·.textOf? ["description"]) block.directives
  tags := block.directives.flatMap (·.tagNames)
  consumes := block.directives.flatMap (·.itemsOf ["consumes"] blankList)
  produces := block.directives.flatMap (·.itemsOf ["produces"] blankList)
  body := (block.directives.filterMap (·.body?)).getLast?
  responses := block.directives.flatMap (·.responses)
  params := block.directives.flatMap (·.params)
  security := block.directives.flatMap (·.security)
  deprecated := lastRead "deprecated" readFlag block.directives

/-- Taking all directives gives every field on its own. -/
theorem foldl_take (directives : List Directive) : directives.foldl take {} = gathered ⟨directives, none⟩ := by
  induction directives using List.reverseRecOn with
  | nil => rfl
  | append_singleton directives directive ih =>
    rw [List.foldl_append, ih]
    simp [take_eq, gathered, lastGiven_concat, lastRead_concat]

/-- The record of an operation has every field on its own. -/
theorem ofBlock_eq_gathered (block : CommentBlock) : ofBlock block = gathered block := by
  simp [ofBlock, foldl_take, gathered]

/-- The fields of the record. -/
def fields : List (Projection Operation) :=
  [⟨_, method⟩, ⟨_, path⟩, ⟨_, operationId⟩, ⟨_, summary⟩, ⟨_, description⟩, ⟨_, tags⟩, ⟨_, consumes⟩,
    ⟨_, produces⟩, ⟨_, body⟩, ⟨_, responses⟩, ⟨_, params⟩, ⟨_, security⟩, ⟨_, deprecated⟩]

end Operation

namespace Document

/-- What one directive makes of each field. -/
theorem take_eq (record : Document) (directive : Directive) :
    record.take directive =
      { title := (directive.infoText? .title).or record.title
        version := (directive.infoText? .version).or record.version
        description := (directive.infoText? .description).or record.description
        openapiVersion := (directive.infoText? .openapiVersion).or record.openapiVersion
        termsOfService := (directive.infoText? .termsOfService).or record.termsOfService
        contactName := (directive.infoText? .contactName).or record.contactName
        contactEmail := (directive.infoText? .contactEmail).or record.contactEmail
        contactUrl := (directive.infoText? .contactUrl).or record.contactUrl
        licenseName := (directive.infoText? .licenseName).or record.licenseName
        licenseUrl := (directive.infoText? .licenseUrl).or record.licenseUrl
        servers :=
          if directive.replacesServers then directive.infoServers
          else record.servers ++ directive.server?.toList
        tags := record.tags ++ directive.documentTag?.toList } := by
  rw [take]
  generalize hkey : directive.key = key
  fun_cases DocumentKey.ofName? key
  case case4 =>
    simp_all [Directive.infoText?, Directive.infoKey?, Directive.replacesServers, Directive.server?,
      Directive.documentTag?]
  case case1 =>
    simp only [enter, Directive.infoText?, Directive.infoKey?, Directive.replacesServers, Directive.server?,
      Directive.documentTag?, Directive.infoServers, hkey]
    generalize splitInfo directive.argument = parts
    cases InfoKey.ofName? parts.1 with
    | none => simp
    | some key => cases key <;> simp [enterInfo, setText_eq_or]
  all_goals
    simp only [enter, Directive.infoText?, Directive.infoKey?, Directive.replacesServers, Directive.server?,
      Directive.documentTag?, hkey]
    by_cases hempty : (splitDescription directive.argument).1 = "" <;> simp [hempty]

/-- The servers of a document: those that the last replacement gives, or those that were there before if there is
none, and behind them the ones that are added later. -/
def serversOf (before : List Server) (directives : List Directive) : List Server :=
  (directives.filter (·.replacesServers)).getLast?.elim before (·.infoServers) ++
    (directives.rtakeWhile (!·.replacesServers)).flatMap (·.server?.toList)

/-- The record that the comment is folded into, every field on its own. -/
def gathered (start : Document) (block : CommentBlock) : Document where
  title := (lastGiven (·.infoText? .title) block.directives).or start.title
  version := (lastGiven (·.infoText? .version) block.directives).or start.version
  description := (lastGiven (·.infoText? .description) block.directives).or start.description
  openapiVersion := (lastGiven (·.infoText? .openapiVersion) block.directives).or start.openapiVersion
  termsOfService := (lastGiven (·.infoText? .termsOfService) block.directives).or start.termsOfService
  contactName := (lastGiven (·.infoText? .contactName) block.directives).or start.contactName
  contactEmail := (lastGiven (·.infoText? .contactEmail) block.directives).or start.contactEmail
  contactUrl := (lastGiven (·.infoText? .contactUrl) block.directives).or start.contactUrl
  licenseName := (lastGiven (·.infoText? .licenseName) block.directives).or start.licenseName
  licenseUrl := (lastGiven (·.infoText? .licenseUrl) block.directives).or start.licenseUrl
  servers := serversOf start.servers block.directives
  tags := start.tags ++ block.directives.flatMap (·.documentTag?.toList)

/-- The fields of the record. -/
def fields : List (Projection Document) :=
  [⟨_, title⟩, ⟨_, version⟩, ⟨_, description⟩, ⟨_, openapiVersion⟩, ⟨_, termsOfService⟩, ⟨_, contactName⟩,
    ⟨_, contactEmail⟩, ⟨_, contactUrl⟩, ⟨_, licenseName⟩, ⟨_, licenseUrl⟩, ⟨_, servers⟩, ⟨_, tags⟩]

end Document

end ApiScribe.Comment
