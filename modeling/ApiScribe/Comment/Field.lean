import ApiScribe.Comment.Container

/-!
# Annotations of fields
-/

namespace ApiScribe.Comment

/-- What the author of a field wrote about it. -/
structure Field where
  name : Option String := none
  description : Option String := none
  sample : Option String := none
  default : Option String := none
  format : Option String := none
  nullable : Option Bool := none
  deprecated : Option Bool := none
  enumValues : List String := []
  oneOf : List String := []
deriving DecidableEq, Repr, Inhabited

/-- The directives that a field knows. -/
inductive FieldKey where
  | name | description | sample | default | format | nullable | deprecated | enum | oneOf
deriving DecidableEq, Repr

/-- The key with this normal name. -/
def FieldKey.ofName? (name : String) : Option FieldKey :=
  match name with
  | "name" => some .name
  | "description" => some .description
  | "example" => some .sample
  | "default" => some .default
  | "format" => some .format
  | "nullable" => some .nullable
  | "deprecated" => some .deprecated
  | "enum" => some .enum
  | "oneof" => some .oneOf
  | _ => none

/-- Enter the argument of a known directive. -/
def Field.enter (record : Field) (argument : String) : FieldKey → Field
  | .name => { record with name := setText record.name (unquote argument) }
  | .description => { record with description := setText record.description argument }
  | .sample => { record with sample := setText record.sample (unquote argument) }
  | .default => { record with default := setText record.default (unquote argument) }
  | .format => { record with format := setText record.format (unquote argument) }
  | .nullable => { record with nullable := readFlag argument }
  | .deprecated => { record with deprecated := readFlag argument }
  | .enum => { record with enumValues := record.enumValues ++ commaList argument }
  | .oneOf => { record with oneOf := record.oneOf ++ blankList argument }

/-- Enter one directive; an unknown one changes nothing. -/
def Field.take (record : Field) (directive : Directive) : Field :=
  match FieldKey.ofName? directive.key with
  | some key => record.enter directive.argument key
  | none => record

/-- What one directive complains about. -/
def Field.complaints (subject : String) (directive : Directive) : List Finding :=
  match FieldKey.ofName? directive.key with
  | some _ => []
  | none => [⟨subject, .unknownDirective directive.name⟩]

/-- The record of a comment; plain text stands in for a missing description. -/
def Field.ofBlock (block : CommentBlock) : Field :=
  let record := block.directives.foldl Field.take {}
  { record with description := record.description.or block.plainText }

/-- The record of a comment and what was wrong in it. -/
def Field.read (lines : List String) (subject : String) : Field × List Finding :=
  let (block, findings) := lex lines subject
  (Field.ofBlock block, findings ++ block.directives.flatMap (Field.complaints subject))

end ApiScribe.Comment
