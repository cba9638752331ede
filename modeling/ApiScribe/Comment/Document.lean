import ApiScribe.Comment.Container

/-!
# Annotations of the whole document

Several comments may be folded into one record, each with the findings it adds.
-/

namespace ApiScribe.Comment

/-- A tag with its description. -/
structure Tag where
  name : String
  description : Option String
deriving DecidableEq, Repr

/-- A server with its description. -/
structure Server where
  url : String
  description : Option String
deriving DecidableEq, Repr

/-- What the inner comments of the crate root say about the document. -/
structure Document where
  title : Option String := none
  version : Option String := none
  description : Option String := none
  openapiVersion : Option String := none
  termsOfService : Option String := none
  contactName : Option String := none
  contactEmail : Option String := none
  contactUrl : Option String := none
  licenseName : Option String := none
  licenseUrl : Option String := none
  servers : List Server := []
  tags : List Tag := []
deriving DecidableEq, Repr, Inhabited

/-- The keys of an `info` directive. -/
inductive InfoKey where
  | title | version | description | openapiVersion | termsOfService | contactName | contactEmail
  | contactUrl | licenseName | licenseUrl | servers
deriving DecidableEq, Repr

/-- The key written so, in any ASCII case. -/
def InfoKey.ofName? (name : String) : Option InfoKey :=
  match Text.lowerAscii name with
  | "title" => some .title
  | "version" => some .version
  | "description" => some .description
  | "oas" => some .openapiVersion
  | "openapi" => some .openapiVersion
  | "termsofservice" => some .termsOfService
  | "contact.name" => some .contactName
  | "contact.email" => some .contactEmail
  | "contact.url" => some .contactUrl
  | "license.name" => some .licenseName
  | "license.url" => some .licenseUrl
  | "server" => some .servers
  | "servers" => some .servers
  | _ => none

/-- Cut an `info` argument into its key and its value. -/
def splitInfo (argument : String) : String × String :=
  match Text.splitAtBlank argument with
  | some (key, value) => (key, Text.trim value)
  | none => (argument, "")

/-- Enter the value of a known `info` key; `servers` replaces the servers read so far. -/
def Document.enterInfo (record : Document) (value : String) : InfoKey → Document
  | .title => { record with title := setText record.title value }
  | .version => { record with version := setText record.version value }
  | .description => { record with description := setText record.description value }
  | .openapiVersion => { record with openapiVersion := setText record.openapiVersion value }
  | .termsOfService => { record with termsOfService := setText record.termsOfService value }
  | .contactName => { record with contactName := setText record.contactName value }
  | .contactEmail => { record with contactEmail := setText record.contactEmail value }
  | .contactUrl => { record with contactUrl := setText record.contactUrl value }
  | .licenseName => { record with licenseName := setText record.licenseName value }
  | .licenseUrl => { record with licenseUrl := setText record.licenseUrl value }
  | .servers => { record with servers := (blankList value).map fun url => ⟨url, none⟩ }

/-- The directives that a document knows. -/
inductive DocumentKey where
  | info | server | tag
deriving DecidableEq, Repr

/-- The key with this normal name. -/
def DocumentKey.ofName? (name : String) : Option DocumentKey :=
  match name with
  | "info" => some .info
  | "server" => some .server
  | "tag" => some .tag
  | _ => none

/-- Enter the argument of a known directive. -/
def Document.enter (record : Document) (argument : String) : DocumentKey → Document
  | .info =>
    let (name, value) := splitInfo argument
    match InfoKey.ofName? name with
    | some key => record.enterInfo value key
    | none => record
  | .server =>
    let (url, description) := splitDescription argument
    if url = "" then record else { record with servers := record.servers ++ [⟨url, description⟩] }
  | .tag =>
    let (name, description) := splitDescription argument
    if name = "" then record else { record with tags := record.tags ++ [⟨name, description⟩] }

/-- Enter one directive; an unknown one changes nothing. -/
def Document.take (record : Document) (directive : Directive) : Document :=
  match DocumentKey.ofName? directive.key with
  | some key => record.enter directive.argument key
  | none => record

/-- What one directive complains about. -/
def Document.complaints (subject : String) (directive : Directive) : List Finding :=
  match DocumentKey.ofName? directive.key with
  | none => [⟨subject, .unknownDirective directive.name⟩]
  | some .info =>
    let name := (splitInfo directive.argument).1
    if (InfoKey.ofName? name).isSome then [] else [⟨subject, .unknownInfoKey name⟩]
  | some _ => []

/-- Fold a comment into the record. -/
def Document.fold (record : Document) (block : CommentBlock) : Document :=
  block.directives.foldl Document.take record

/-- Fold the lines of a comment into the record and report what was wrong in them. -/
def Document.read (record : Document) (lines : List String) (subject : String) :
    Document × List Finding :=
  let (block, findings) := lex lines subject
  (record.fold block, findings ++ block.directives.flatMap (Document.complaints subject))

end ApiScribe.Comment
