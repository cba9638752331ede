import ApiScribe.Comment.Container

/-!
# Annotations of operations
-/

namespace ApiScribe.Comment

/-- A request body: `<type> [--- description]`. -/
structure Body where
  typeName : String
  description : Option String
deriving DecidableEq, Repr

/-- A response: `[status] [type] [--- description]`. -/
structure Response where
  status : String
  typeName : Option String
  description : Option String
deriving DecidableEq, Repr

/-- A parameter: `<name> <in> <type> <required> [--- description]`. -/
structure Param where
  name : String
  location : String
  typeName : String
  required : Bool
  description : Option String
deriving DecidableEq, Repr

/-- What the author of a function wrote about the operation it serves. -/
structure Operation where
  method : Option String := none
  path : Option String := none
  operationId : Option String := none
  summary : Option String := none
  description : Option String := none
  tags : List String := []
  consumes : List String := []
  produces : List String := []
  body : Option Body := none
  responses : List Response := []
  params : List Param := []
  security : List SecurityRequirement := []
  deprecated : Option Bool := none
deriving DecidableEq, Repr, Inhabited

/-- The directives that an operation knows. -/
inductive OperationKey where
  | operation | method | path | operationId | summary | description | tags | tag | consumes | produces
  | security | deprecated | body | response | param
deriving DecidableEq, Repr

/-- The key with this normal name. -/
def OperationKey.ofName? (name : String) : Option OperationKey :=
  match name with
  | "operation" => some .operation
  | "method" => some .method
  | "route" => some .path
  | "path" => some .path
  | "id" => some .operationId
  | "operationid" => some .operationId
  | "summary" => some .summary
  | "description" => some .description
  | "tags" => some .tags
  | "tag" => some .tag
  | "consumes" => some .consumes
  | "produces" => some .produces
  | "security" => some .security
  | "deprecated" => some .deprecated
  | "body" => some .body
  | "response" => some .response
  | "success" => some .response
  | "failure" => some .response
  | "param" => some .param
  | "parameter" => some .param
  | _ => none

/-- Read a body; it needs a type. -/
def Body.ofArgument? (argument : String) : Option Body :=
  let (typeName, description) := splitDescription argument
  if typeName = "" then none else some ⟨typeName, description⟩

/-- The written form of a status: ranges in upper case, `default` in lower case. -/
def canonicalStatus (status : String) : String :=
  let upper := Text.upperAscii status
  if upper = "DEFAULT" then "default" else upper

/-- Read a response. A value that does not start with a status is a type under status 200. -/
def Response.ofArgument (argument : String) : Response :=
  let (value, description) := splitDescription argument
  let (status, typeName) : String × Option String :=
    match Text.splitAtBlank value with
    | some (first, rest) => if isStatus first then (first, some (Text.trim rest)) else ("200", some value)
    | none => if isStatus value then (value, none) else ("200", some value)
  ⟨canonicalStatus status, typeName.filter (· != ""), description⟩

/-- Read a parameter, which has exactly four words. -/
def Param.ofArgument (argument : String) : Except ParameterFault Param :=
  let (value, description) := splitDescription argument
  match Text.words value with
  | [name, location, typeName, required] =>
    let flag := Text.lowerAscii required
    if flag = "true" then .ok ⟨name, Text.lowerAscii location, typeName, true, description⟩
    else if flag = "false" then .ok ⟨name, Text.lowerAscii location, typeName, false, description⟩
    else .error (.requiredFlag flag)
  | parts => .error (.partCount parts.length)

/-- Enter the argument of a known directive. -/
def Operation.enter (record : Operation) (argument : String) : OperationKey → Operation
  | .operation =>
    match Text.words argument with
    | [method, path, id] =>
      { record with method := some method, path := some path, operationId := some id }
    | _ => record
  | .method => { record with method := setText record.method argument }
  | .path => { record with path := setText record.path argument }
  | .operationId => { record with operationId := setText record.operationId argument }
  | .summary => { record with summary := setText record.summary argument }
  | .description => { record with description := setText record.description argument }
  | .tags => { record with tags := record.tags ++ commaList argument }
  | .tag => { record with tags := addText record.tags argument }
  | .consumes => { record with consumes := record.consumes ++ blankList argument }
  | .produces => { record with produces := record.produces ++ blankList argument }
  | .security =>
    { record with security := record.security ++ (SecurityRequirement.ofArgument? argument).toList }
  | .deprecated => { record with deprecated := readFlag argument }
  | .body => { record with body := (Body.ofArgument? argument).or record.body }
  | .response => { record with responses := record.responses ++ [Response.ofArgument argument] }
  | .param =>
    match Param.ofArgument argument with
    | .ok param => { record with params := record.params ++ [param] }
    | .error _ => record

/-- Enter one directive; an unknown one changes nothing. -/
def Operation.take (record : Operation) (directive : Directive) : Operation :=
  match OperationKey.ofName? directive.key with
  | some key => record.enter directive.argument key
  | none => record

/-- What one directive complains about. -/
def Operation.complaints (subject : String) (directive : Directive) : List Finding :=
  let argument := directive.argument
  match OperationKey.ofName? directive.key with
  | none => [⟨subject, .unknownDirective directive.name⟩]
  | some .operation =>
    if (Text.words argument).length = 3 then [] else [⟨subject, .malformedOperation argument⟩]
  | some .body => if (Body.ofArgument? argument).isSome then [] else [⟨subject, .bodyWithoutType⟩]
  | some .param =>
    match Param.ofArgument argument with
    | .ok _ => []
    | .error fault => [⟨subject, .parameterDropped argument fault⟩]
  | some _ => []

/-- The record of a comment; plain text stands in for a missing summary. -/
def Operation.ofBlock (block : CommentBlock) : Operation :=
  let record := block.directives.foldl Operation.take {}
  { record with summary := record.summary.or block.plainText }

/-- The record of a comment and what was wrong in it. -/
def Operation.read (lines : List String) (subject : String) : Operation × List Finding :=
  let (block, findings) := lex lines subject
  (Operation.ofBlock block, findings ++ block.directives.flatMap (Operation.complaints subject))

end ApiScribe.Comment
