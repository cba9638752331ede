import ApiScribe.Failure
import ApiScribe.Text.Basic

/-!
# Findings

What a run reports without stopping. A finding is a cause attached to the declaration, field,
operation or place it concerns; severity and wording are functions of the cause. An error is a
finding that dropped something, a warning is any other.
-/

namespace ApiScribe

/-- How serious a finding is. -/
inductive Severity where
  | warning
  | error
deriving DecidableEq, Repr

/-- Why a declared parameter was dropped. -/
inductive ParameterFault where
  | partCount (count : Nat)
  | requiredFlag (written : String)
  | unknownLocation (written : String)
  | notPrimitive (written : String)
deriving DecidableEq, Repr

/-- The text shown for a parameter's fault. -/
def ParameterFault.message : ParameterFault → String
  | .partCount count =>
    "expected `<name> <in> <type> <required>`, found " ++ Text.decimal count ++ " parts"
  | .requiredFlag written => "required flag must be true or false, found `" ++ written ++ "`"
  | .unknownLocation written => "unknown location `" ++ written ++ "`"
  | .notPrimitive written => "`" ++ written ++ "` is not a primitive type"

/-- Why a type written in an annotation gives no schema. -/
inductive ReferenceFault where
  | notAType (written : String)
  | unsupported (what : String)
  | notFound (written : String)
  | notSchema (written : String)
  | notBuildable (written : String)
deriving DecidableEq, Repr

/-- The text shown for a reference's fault. -/
def ReferenceFault.message : ReferenceFault → String
  | .notAType written => "`" ++ written ++ "` is not a type"
  | .unsupported what => "unsupported type (" ++ what ++ ")"
  | .notFound written => "type `" ++ written ++ "` not found"
  | .notSchema written => "`" ++ written ++ "` is not declared as a schema"
  | .notBuildable written => "`" ++ written ++ "` cannot be built as a schema"

/-- What a finding reports. -/
inductive Cause where
  /-- A block directive has no closing line. -/
  | unterminatedBlock (name argument : String)
  | unknownDirective (name : String)
  | unknownInfoKey (key : String)
  | malformedOperation (argument : String)
  | bodyWithoutType
  | parameterDropped (parameter : String) (fault : ParameterFault)
  /-- A declaration or method of this sort carries no comment. -/
  | noComment (sort : String)
  | moduleNotExtracted (failure : Failure)
  | moduleNotLoaded (failure : Failure)
  | nameTaken (preferred holder chosen : String)
  | traitSchema
  | tupleField
  | flattenedField
  | repeatedProperty (name : String)
  | variantWithData
  | oneOfMemberDropped (member : String) (fault : ReferenceFault)
  | noOneOfMember
  | mapKeyNotText
  | unsupportedType (what : String)
  | typeNotFound (written : String)
  | operationIncomplete (missing : List String)
  | unknownVerb (verb : String)
  | optionalPathParameter (name : String)
  | bodyDropped (fault : ReferenceFault)
  | responseWithoutContent (status : String) (fault : ReferenceFault)
  | repeatedResponse (status : String)
  | operationOverwritten (method path previous : String)
  | operationIdReused (method path : String)
  | overrideKind (offered kept : String)
  /-- Anything else that a caller wants to report. -/
  | note (severity : Severity) (text : String)
deriving DecidableEq, Repr

namespace Cause

/-- Errors are the causes that dropped something. -/
def severity : Cause → Severity
  | .malformedOperation _ | .bodyWithoutType | .parameterDropped _ _ | .moduleNotExtracted _
  | .moduleNotLoaded _ | .traitSchema | .tupleField | .flattenedField | .variantWithData
  | .unsupportedType _ | .typeNotFound _ | .operationIncomplete _ | .unknownVerb _ | .bodyDropped _
  | .responseWithoutContent _ _ => .error
  | .note severity _ => severity
  | _ => .warning

/-- The text shown for a cause. -/
def message : Cause → String
  | .unterminatedBlock name argument =>
    "unterminated `openapi:" ++ name ++ " " ++ argument ++ "` block dropped"
  | .unknownDirective name => "unknown directive `" ++ name ++ "` ignored"
  | .unknownInfoKey key => "unknown info key `" ++ key ++ "` ignored"
  | .malformedOperation argument =>
    "malformed operation directive `" ++ argument ++ "`: expected `<VERB> <path> <operationId>`"
  | .bodyWithoutType => "body directive without a type dropped"
  | .parameterDropped parameter fault => "parameter `" ++ parameter ++ "` dropped: " ++ fault.message
  | .noComment sort => sort ++ " has no attached comment"
  | .moduleNotExtracted failure => "module loaded on demand was not extracted: " ++ failure.message
  | .moduleNotLoaded failure => failure.message
  | .nameTaken preferred holder chosen =>
    "component name `" ++ preferred ++ "` is already used by " ++ holder ++ "; using `" ++ chosen ++ "`"
  | .traitSchema => "traits cannot be schemas; schema directive ignored"
  | .tupleField => "tuple field has no serialized name; field omitted"
  | .flattenedField => "flattened fields are not expanded; field omitted"
  | .repeatedProperty name => "property `" ++ name ++ "` declared twice; last one kept"
  | .variantWithData => "variant carries data; omitted from enum values"
  | .oneOfMemberDropped member fault => "oneOf member `" ++ member ++ "` dropped: " ++ fault.message
  | .noOneOfMember => "no oneOf member left; keeping the inferred type"
  | .mapKeyNotText => "map key is not string-like; treated as string"
  | .unsupportedType what => "unsupported type (" ++ what ++ "); omitted"
  | .typeNotFound written => "type `" ++ written ++ "` not found; omitted"
  | .operationIncomplete missing => "operation dropped: missing " ++ Text.join ", " missing
  | .unknownVerb verb => "operation dropped: unknown HTTP verb `" ++ verb ++ "`"
  | .optionalPathParameter name => "path parameter `" ++ name ++ "` is always required"
  | .bodyDropped fault => "request body dropped: " ++ fault.message
  | .responseWithoutContent status fault =>
    "response " ++ status ++ " kept without content: " ++ fault.message
  | .repeatedResponse status => "response " ++ status ++ " declared twice; last one kept"
  | .operationOverwritten method path previous =>
    method ++ " " ++ path ++ " was already defined by " ++ previous ++ "; overwritten"
  | .operationIdReused method path => "operationId is also used by " ++ method ++ " " ++ path
  | .overrideKind offered kept =>
    "override has " ++ offered ++ " where the document has " ++ kept ++ "; kept the document value"
  | .note _ text => text

end Cause

/-- A cause and what it concerns. -/
structure Finding where
  subject : String
  cause : Cause
deriving DecidableEq, Repr

namespace Finding

/-- The severity of a finding is that of its cause. -/
def severity (finding : Finding) : Severity := finding.cause.severity

/-- The text of a finding without its subject. -/
def message (finding : Finding) : String := finding.cause.message

/-- The text of a finding with its subject in front. -/
def display (finding : Finding) : String := finding.subject ++ ": " ++ finding.message

/-- Whether the finding is a warning. -/
def isWarning (finding : Finding) : Bool := finding.severity == .warning

/-- Whether the finding is an error. -/
def isError (finding : Finding) : Bool := finding.severity == .error

end Finding

/-- Whether some message holds the given text. -/
def mentions (findings : List Finding) (needle : String) : Bool :=
  findings.any fun finding => Text.contains needle finding.message

end ApiScribe
