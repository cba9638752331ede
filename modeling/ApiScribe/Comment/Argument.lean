import ApiScribe.Text.Basic

/-!
# Arguments of directives

The small grammars that the arguments share: a value with a description after `---`, lists
separated by commas or blanks, quoted words, flags and status codes.
-/

namespace ApiScribe.Comment

/-- What separates a value from its description. -/
def descriptionMark : String := "---"

/-- Cut an argument into its value and the description after the first mark, both trimmed. -/
def splitDescription (argument : String) : String × Option String :=
  match Text.splitAround descriptionMark argument with
  | some (value, description) =>
    let description := Text.trim description
    (Text.trim value, if description = "" then none else some description)
  | none => (Text.trim argument, none)

/-- A value without blanks, then double quotes, then single quotes around it. -/
def unquote (value : String) : String :=
  Text.trimOf (· == '\'') (Text.trimOf (· == '"') (Text.trim value))

/-- The unquoted items between commas, empty ones left out. -/
def commaList (argument : String) : List String :=
  ((Text.splitOnChar ',' argument).map fun item => unquote (Text.trim item)).filter (· != "")

/-- The items between blanks. -/
def blankList (argument : String) : List String :=
  Text.words argument

/-- Read an optional flag; an empty argument means `true`. -/
def readFlag (argument : String) : Option Bool :=
  match Text.lowerAscii (Text.trim argument) with
  | "" => some true
  | "true" => some true
  | "yes" => some true
  | "false" => some false
  | "no" => some false
  | _ => none

/-- A status is `default`, three digits from 100 to 599, or a digit followed by `XX`. -/
def isStatus (word : String) : Bool :=
  word == "default" ||
    match word.toList with
    | [a, b, c] =>
      ('1' ≤ a && a ≤ '5') && ((b.isDigit && c.isDigit) || (b.toUpper == 'X' && c.toUpper == 'X'))
    | _ => false

end ApiScribe.Comment
