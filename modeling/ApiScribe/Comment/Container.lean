import ApiScribe.Comment.Argument
import ApiScribe.Comment.Directive

/-!
# Annotations of types, traits and impls

A record is the fold of its directives over an empty record. What a directive complains about
depends on the directive alone, so findings are collected apart from the record.
-/

namespace ApiScribe.Comment

/-- A link to documentation kept elsewhere. -/
structure ExternalDocs where
  url : String
  description : Option String
deriving DecidableEq, Repr

/-- A security scheme with the scopes it asks for. -/
structure SecurityRequirement where
  scheme : String
  scopes : List String
deriving DecidableEq, Repr

/-- Read `<scheme> [scope ...]`. -/
def SecurityRequirement.ofArgument? (argument : String) : Option SecurityRequirement :=
  match Text.words argument with
  | [] => none
  | scheme :: scopes => some ⟨scheme, scopes⟩

/-- Read `<url> [description]`, where a description after the mark wins over further words. -/
def ExternalDocs.ofArgument? (argument : String) : Option ExternalDocs :=
  let (value, description) := splitDescription argument
  match Text.words value with
  | [] => none
  | [url] => some ⟨url, description⟩
  | url :: rest => some ⟨url, description.or (some (Text.join " " rest))⟩

/-- The trimmed text when it is not empty, else what was there before. -/
def setText (before : Option String) (value : String) : Option String :=
  let value := Text.trim value
  if value = "" then before else some value

/-- Append the trimmed text when it is not empty. -/
def addText (items : List String) (value : String) : List String :=
  let value := Text.trim value
  if value = "" then items else items ++ [value]

/-- What the author of a type, trait or impl wrote about it. -/
structure Container where
  /-- Opted in as a component schema. -/
  schema : Bool := false
  /-- The exposed schema name, or the tag name of a trait or impl. -/
  name : Option String := none
  xmlName : Option String := none
  description : Option String := none
  externalDocs : Option ExternalDocs := none
  basePath : Option String := none
  tags : List String := []
  summary : Option String := none
  security : List SecurityRequirement := []
  deprecated : Option Bool := none
deriving DecidableEq, Repr, Inhabited

/-- The directives that a container knows. -/
inductive ContainerKey where
  | schema | name | xml | description | externalDocs | basePath | tags | tag | summary | security
  | deprecated
deriving DecidableEq, Repr

/-- The key with this normal name. -/
def ContainerKey.ofName? (name : String) : Option ContainerKey :=
  match name with
  | "schema" => some .schema
  | "name" => some .name
  | "xml" => some .xml
  | "description" => some .description
  | "externaldocs" => some .externalDocs
  | "path" => some .basePath
  | "basepath" => some .basePath
  | "tags" => some .tags
  | "tag" => some .tag
  | "summary" => some .summary
  | "security" => some .security
  | "deprecated" => some .deprecated
  | _ => none

/-- Enter the argument of a known directive. -/
def Container.enter (record : Container) (argument : String) : ContainerKey → Container
  | .schema =>
    { record with schema := true, name := ((Text.words argument).head?).or record.name }
  | .name => { record with name := setText record.name argument }
  | .xml => { record with xmlName := setText record.xmlName argument }
  | .description => { record with description := setText record.description argument }
  | .externalDocs => { record with externalDocs := ExternalDocs.ofArgument? argument }
  | .basePath => { record with basePath := setText record.basePath argument }
  | .tags => { record with tags := record.tags ++ commaList argument }
  | .tag => { record with tags := addText record.tags argument }
  | .summary => { record with summary := setText record.summary argument }
  | .security =>
    { record with security := record.security ++ (SecurityRequirement.ofArgument? argument).toList }
  | .deprecated => { record with deprecated := readFlag argument }

/-- Enter one directive; an unknown one changes nothing. -/
def Container.take (record : Container) (directive : Directive) : Container :=
  match ContainerKey.ofName? directive.key with
  | some key => record.enter directive.argument key
  | none => record

/-- What one directive complains about. -/
def Container.complaints (subject : String) (directive : Directive) : List Finding :=
  match ContainerKey.ofName? directive.key with
  | some _ => []
  | none => [⟨subject, .unknownDirective directive.name⟩]

/-- The record of a comment; plain text stands in for a missing description. -/
def Container.ofBlock (block : CommentBlock) : Container :=
  let record := block.directives.foldl Container.take {}
  { record with description := record.description.or block.plainText }

/-- The record of a comment and what was wrong in it. -/
def Container.read (lines : List String) (subject : String) : Container × List Finding :=
  let (block, findings) := lex lines subject
  (Container.ofBlock block, findings ++ block.directives.flatMap (Container.complaints subject))

end ApiScribe.Comment
