import ApiScribe.Operation.Method
import ApiScribe.Schema.Basic

/-!
# The document

The typed form of the document. Paths, responses and component schemas are sorted by key; media types
and security schemes keep their order.
-/

namespace ApiScribe

namespace Document

open Operation (Method Location)

/-- Whom to ask about the interface. -/
structure Contact where
  name : Option String := none
  url : Option String := none
  email : Option String := none
deriving DecidableEq, Repr, Inhabited

/-- The licence of the interface. -/
structure License where
  name : String
  url : Option String := none
deriving DecidableEq, Repr, Inhabited

/-- What the document says about itself. -/
structure Info where
  title : String
  description : Option String := none
  termsOfService : Option String := none
  contact : Option Contact := none
  license : Option License := none
  version : String
deriving DecidableEq, Repr, Inhabited

/-- A server. -/
structure Server where
  url : String
  description : Option String := none
deriving DecidableEq, Repr, Inhabited

/-- A tag with its details. -/
structure Tag where
  name : String
  description : Option String := none
  externalDocs : Option Comment.ExternalDocs := none
deriving DecidableEq, Repr, Inhabited

/-- A parameter of an operation. -/
structure Parameter where
  name : String
  location : Location
  description : Option String := none
  required : Bool
  schema : Schema
deriving Repr

/-- Schemas by media type, in order. -/
abbrev Content := List (String × Schema)

/-- The body of a request. -/
structure RequestBody where
  description : Option String := none
  required : Bool
  content : Content
deriving Repr, Inhabited

/-- A response. -/
structure Response where
  description : String
  content : Content := []
deriving Repr, Inhabited

/-- An operation. -/
structure Operation where
  tags : List String := []
  summary : Option String := none
  description : Option String := none
  operationId : String
  parameters : List Parameter := []
  requestBody : Option RequestBody := none
  /-- Sorted by status. -/
  responses : List (String × Response)
  /-- Schemes with their scopes. -/
  security : List (List (String × List String)) := []
  deprecated : Option Bool := none
deriving Repr, Inhabited

/-- The operations of one path. -/
structure PathItem where
  get : Option Operation := none
  put : Option Operation := none
  post : Option Operation := none
  delete : Option Operation := none
  options : Option Operation := none
  head : Option Operation := none
  patch : Option Operation := none
  trace : Option Operation := none
deriving Repr, Inhabited

namespace PathItem

/-- The operation under a method. -/
def operation? (item : PathItem) : Method → Option Operation
  | .get => item.get
  | .put => item.put
  | .post => item.post
  | .delete => item.delete
  | .options => item.options
  | .head => item.head
  | .patch => item.patch
  | .trace => item.trace

/-- Store an operation under a method. -/
def set (item : PathItem) (method : Method) (operation : Operation) : PathItem :=
  match method with
  | .get => { item with get := some operation }
  | .put => { item with put := some operation }
  | .post => { item with post := some operation }
  | .delete => { item with delete := some operation }
  | .options => { item with options := some operation }
  | .head => { item with head := some operation }
  | .patch => { item with patch := some operation }
  | .trace => { item with trace := some operation }

/-- The number of operations of a path. -/
def count (item : PathItem) : Nat :=
  (Method.all.filter fun method => (item.operation? method).isSome).length

/-- The operation stored last is found, the others stay. -/
theorem operation?_set (item : PathItem) (method other : Method) (operation : Operation) :
    (item.set method operation).operation? other =
      if other = method then some operation else item.operation? other := by
  cases method <;> cases other <;> rfl

end PathItem

end Document

/-- The document. -/
structure Document where
  openapi : String
  info : Document.Info
  servers : List Document.Server := []
  tags : List Document.Tag := []
  /-- Sorted by path. -/
  paths : List (String × Document.PathItem)
  /-- Sorted by component name; absent when there is none. -/
  components : Option (List (String × Schema)) := none
deriving Repr, Inhabited

namespace Document

/-- The operation under a path and a method. -/
def operation? (document : Document) (path : String) (method : Operation.Method) : Option Operation :=
  (Json.lookup path document.paths).bind fun item => item.operation? method

/-- The number of operations of all paths. -/
def operationCount (document : Document) : Nat :=
  document.paths.foldr (fun entry total => entry.2.count + total) 0

/-- The number of component schemas. -/
def schemaCount (document : Document) : Nat := (document.components.map List.length).getD 0

end Document

end ApiScribe
