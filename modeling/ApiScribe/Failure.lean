/-!
# Failures

The conditions that end a run, as causes. Their wording is `Failure.message`; everything that
does not end a run is a `Finding`.
-/

namespace ApiScribe

/-- Why an override document could not be used. -/
inductive OverrideFault where
  /-- The file could not be read. -/
  | unreadable (reason : String)
  /-- The text is not a document of its format. -/
  | malformed
deriving DecidableEq, Repr

/-- A condition that ends a run. -/
inductive Failure where
  | io (reason : String)
  | parse (file reason : String)
  /-- Two declarations share one qualified name. -/
  | redeclaration (name first second : String)
  | serialization (reason : String)
  | override (file : String) (fault : OverrideFault)
deriving DecidableEq, Repr

/-- The text shown for a failure. -/
def Failure.message : Failure → String
  | .io reason => "IO error: " ++ reason
  | .parse file reason => "parse error in " ++ file ++ ": " ++ reason
  | .redeclaration name first second =>
    "redeclaration of " ++ name ++ " in " ++ second ++ " (first declared in " ++ first ++ ")"
  | .serialization reason => "serialization error: " ++ reason
  | .override file (.unreadable reason) => "invalid override document " ++ file ++ ": " ++ reason
  | .override file .malformed => "invalid override document " ++ file

/-- The text of the condition beneath a failure, where one is kept. -/
def Failure.source? : Failure → Option String
  | .io reason => some reason
  | _ => none

/-- Text that is not JSON. -/
def Failure.ofJson (reason : String) : Failure := .serialization ("JSON: " ++ reason)

/-- Text that is not YAML. -/
def Failure.ofYaml (reason : String) : Failure := .serialization ("YAML: " ++ reason)

/-- The reason why a file that does not exist cannot be read. -/
def noSuchFile : String := "No such file or directory (os error 2)"

/-- A source file that cannot be read. -/
def unreadableSource (file reason : String) : String := "Failed to read file: " ++ file ++ ": " ++ reason

/-- A source text that is not a file of items. -/
def unparsableSource (file : String) : String :=
  "Failed to parse Rust syntax in file: " ++ file

end ApiScribe
