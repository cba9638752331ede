import ApiScribe.Text.Basic
import ApiScribe.Text.Case

/-!
# Rules for renaming fields and variants

Fields are written in snake case and variants in Pascal case; a rule turns either into its own
case. Letters outside ASCII keep their case, but an upper-case one still starts a word.
-/

namespace ApiScribe

/-- A casing rule. -/
inductive RenameRule where
  | lower | upper | pascal | camel | snake | screamingSnake | kebab | screamingKebab
deriving DecidableEq, Repr

namespace RenameRule

/-- The rule with this spelling. -/
def ofName? (name : String) : Option RenameRule :=
  match name with
  | "lowercase" => some .lower
  | "UPPERCASE" => some .upper
  | "PascalCase" => some .pascal
  | "camelCase" => some .camel
  | "snake_case" => some .snake
  | "SCREAMING_SNAKE_CASE" => some .screamingSnake
  | "kebab-case" => some .kebab
  | "SCREAMING-KEBAB-CASE" => some .screamingKebab
  | _ => none

/-- Apply a function to the first character. -/
def mapFirst (f : Char → Char) : List Char → List Char
  | [] => []
  | c :: cs => f c :: cs

/-- Snake case to Pascal case: each part between underscores starts with a capital. -/
def pascalOfSnake (cs : List Char) : List Char :=
  (Text.pieces (· == '_') cs).flatMap (mapFirst Char.toUpper)

/-- An underscore before each upper-case letter, which is then lowered. -/
def breakWords (cs : List Char) : List Char :=
  cs.flatMap fun c => if Text.isUpperChar c then ['_', c.toLower] else [c.toLower]

/-- Pascal case to snake case: the first letter starts no new word. -/
def snakeOfPascal : List Char → List Char
  | [] => []
  | c :: cs => c.toLower :: breakWords cs

/-- Underscores become hyphens. -/
def hyphenate (cs : List Char) : List Char :=
  cs.map fun c => if c = '_' then '-' else c

/-- The rule on the characters of a field. -/
def onField : RenameRule → List Char → List Char
  | .lower, cs => cs
  | .snake, cs => cs
  | .upper, cs => cs.map Char.toUpper
  | .screamingSnake, cs => cs.map Char.toUpper
  | .pascal, cs => pascalOfSnake cs
  | .camel, cs => mapFirst Char.toLower (pascalOfSnake cs)
  | .kebab, cs => hyphenate cs
  | .screamingKebab, cs => (hyphenate cs).map Char.toUpper

/-- The rule on the characters of a variant. -/
def onVariant : RenameRule → List Char → List Char
  | .pascal, cs => cs
  | .lower, cs => cs.map Char.toLower
  | .upper, cs => cs.map Char.toUpper
  | .camel, cs => mapFirst Char.toLower cs
  | .snake, cs => snakeOfPascal cs
  | .screamingSnake, cs => (snakeOfPascal cs).map Char.toUpper
  | .kebab, cs => hyphenate (snakeOfPascal cs)
  | .screamingKebab, cs => (hyphenate (snakeOfPascal cs)).map Char.toUpper

/-- The exposed name of a field. -/
def applyToField (rule : RenameRule) (field : String) : String :=
  String.ofList (rule.onField field.toList)

/-- The exposed name of a variant. -/
def applyToVariant (rule : RenameRule) (variant : String) : String :=
  String.ofList (rule.onVariant variant.toList)

end RenameRule

end ApiScribe
