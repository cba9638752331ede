import ApiScribe.Text.Basic

/-!
# Methods, parameter locations and status phrases
-/

namespace ApiScribe.Operation

/-- The HTTP methods that an operation can be bound to, in the order of a path item. -/
inductive Method where
  | get | put | post | delete | options | head | patch | trace
deriving DecidableEq, Repr

namespace Method

/-- All methods in order. -/
def all : List Method := [.get, .put, .post, .delete, .options, .head, .patch, .trace]

/-- The verb in upper case. -/
def verb : Method → String
  | .get => "GET"
  | .put => "PUT"
  | .post => "POST"
  | .delete => "DELETE"
  | .options => "OPTIONS"
  | .head => "HEAD"
  | .patch => "PATCH"
  | .trace => "TRACE"

/-- The key of the method in a path item. -/
def key (method : Method) : String := Text.lowerAscii method.verb

/-- The method with this verb, in any ASCII case. -/
def ofVerb? (verb : String) : Option Method :=
  match Text.upperAscii verb with
  | "GET" => some .get
  | "PUT" => some .put
  | "POST" => some .post
  | "DELETE" => some .delete
  | "OPTIONS" => some .options
  | "HEAD" => some .head
  | "PATCH" => some .patch
  | "TRACE" => some .trace
  | _ => none

end Method

/-- Where a parameter is sent. -/
inductive Location where
  | path | query | header | cookie
deriving DecidableEq, Repr

namespace Location

/-- The name of a location. -/
def name : Location → String
  | .path => "path"
  | .query => "query"
  | .header => "header"
  | .cookie => "cookie"

/-- The location with exactly this name. -/
def ofName? (name : String) : Option Location :=
  match name with
  | "path" => some .path
  | "query" => some .query
  | "header" => some .header
  | "cookie" => some .cookie
  | _ => none

/-- The location written so, in any ASCII case. -/
def ofWritten? (written : String) : Option Location := ofName? (Text.lowerAscii written)

end Location

/-- The description of a response that gives none. -/
def reasonPhrase (status : String) : String :=
  match status with
  | "200" => "OK"
  | "201" => "Created"
  | "202" => "Accepted"
  | "204" => "No Content"
  | "301" => "Moved Permanently"
  | "302" => "Found"
  | "304" => "Not Modified"
  | "400" => "Bad Request"
  | "401" => "Unauthorized"
  | "403" => "Forbidden"
  | "404" => "Not Found"
  | "405" => "Method Not Allowed"
  | "409" => "Conflict"
  | "422" => "Unprocessable Entity"
  | "429" => "Too Many Requests"
  | "500" => "Internal Server Error"
  | "502" => "Bad Gateway"
  | "503" => "Service Unavailable"
  | "1XX" => "Informational"
  | "2XX" => "Success"
  | "3XX" => "Redirection"
  | "4XX" => "Client Error"
  | "5XX" => "Server Error"
  | "default" => "Default response"
  | _ => "Response"

end ApiScribe.Operation
