import ApiScribe.Json.Printer
import ApiScribe.Yaml.Character
import ApiScribe.Yaml.Scalar

/-!
# Writing YAML

Values are written in block style: two blanks for each level, sequences not indented below their key,
empty collections as `[]` and `{}`, no wrapping of lines. A text is written plainly if it is read back as
text; else between single quotes; with a line feed in it, as a literal block; and between double quotes
if it holds what none of these can show.
-/

namespace ApiScribe.Yaml

open Json (Value)

/-- How a scalar is written. -/
inductive Style where
  | plain | single | double | literal
deriving DecidableEq, Repr

/-- Characters that cannot start a plain scalar. -/
def leadIndicators : List Char :=
  ['#', ',', '[', ']', '\x7b', '\x7d', '&', '*', '!', '|', '>', '\'', '"', '%', '@', '`']

/-- Whether the first character, with the one after it, is an indicator. -/
def startsWithIndicator : List Char → Bool
  | [] => false
  | c :: rest =>
    leadIndicators.contains c || ((c == '?' || c == ':' || c == '-') && isGap rest.head?)

/-- Whether a `: ` or ` #` stands after the first character. -/
def holdsIndicator : List Char → Bool
  | [] => false
  | [_] => false
  | c :: d :: rest =>
    (d == ':' && isGap rest.head?) || (d == '#' && isGap (some c)) || holdsIndicator (d :: rest)

/-- Whether some character is followed by one such that both conditions hold. -/
def holdsPair (p q : Char → Bool) : List Char → Bool
  | [] => false
  | [_] => false
  | c :: d :: rest => (p c && q d) || holdsPair p q (d :: rest)

/-- Whether only double quotes can show the text: it holds a character that is not written as it is, or
a blank before a line end. -/
def needsEscapes (cs : List Char) : Bool :=
  cs.any (fun c => !isPrintable c) || holdsPair (· == ' ') isBreak cs

/-- Whether the text can be written plainly. -/
def allowsPlain (cs : List Char) : Bool :=
  !cs.isEmpty && cs.head? != some ' ' && cs.getLast? != some ' ' && !cs.any isBreak &&
    !startsWithIndicator cs && !holdsIndicator cs && !startsWithMarker cs

/-- Whether a scalar that is written plainly is read back as text. -/
def readsAsText (text : String) : Bool := resolve text = .text && !hasSpareZero text

/-- The style of a text. -/
def styleOf (text : String) : Style :=
  let cs := text.toList
  if needsEscapes cs then .double
  else if cs.contains '\n' then
    if cs.getLast? = some ' ' then .double else .literal
  else if readsAsText text && allowsPlain cs then .plain
  else if holdsPair isBreak (· == ' ') cs then .double
  else .single

/-- A character between double quotes. -/
def escapeChar (c : Char) : List Char :=
  let hex (width : Nat) : List Char :=
    (List.range width).map fun k =>
      (Json.hexDigit (c.toNat / Nat.pow 16 (width - 1 - k) % 16)).toUpper
  match c.toNat with
  | 0x00 => ['\\', '0']
  | 0x07 => ['\\', 'a']
  | 0x08 => ['\\', 'b']
  | 0x09 => ['\\', 't']
  | 0x0A => ['\\', 'n']
  | 0x0B => ['\\', 'v']
  | 0x0C => ['\\', 'f']
  | 0x0D => ['\\', 'r']
  | 0x1B => ['\\', 'e']
  | 0x22 => ['\\', '"']
  | 0x5C => ['\\', '\\']
  | 0x85 => ['\\', 'N']
  | 0x2028 => ['\\', 'L']
  | 0x2029 => ['\\', 'P']
  | n =>
    if isPrintable c then [c]
    else if n ≤ 0xFF then '\\' :: 'x' :: hex 2
    else if n ≤ 0xFFFF then '\\' :: 'u' :: hex 4
    else '\\' :: 'U' :: hex 8

/-- A text between double quotes. -/
def doubleQuoted (cs : List Char) : List Char := '"' :: cs.flatMap escapeChar ++ ['"']

/-- The blanks in front of a line. -/
def margin (indent : Nat) : List Char := List.replicate indent ' '

/-- Lines with a margin in front of those that are not empty. The flag says whether a line starts. -/
def withMargin (indent : Nat) : Bool → List Char → List Char
  | _, [] => []
  | atStart, c :: cs =>
    if isBreak c then c :: withMargin indent true cs
    else (if atStart then margin indent else []) ++ c :: withMargin indent false cs

/-- A text between single quotes, its line ends followed by a margin. -/
def singleQuoted (indent : Nat) (cs : List Char) : List Char :=
  let doubled := cs.flatMap fun c => if c = '\'' then ['\'', '\''] else [c]
  let ended := (doubled.getLast?.map isBreak).getD false
  '\'' :: withMargin indent false doubled ++ (if ended then margin indent else []) ++ ['\'']

/-- The sign that tells how a literal block ends. -/
def chompMark (cs : List Char) : List Char :=
  match cs.reverse with
  | [] => ['-']
  | [last] => if isBreak last then ['+'] else ['-']
  | last :: before :: _ =>
    if !isBreak last then ['-'] else if isBreak before then ['+'] else []

/-- A literal block. -/
def literalBlock (indent : Nat) (cs : List Char) : List Char :=
  let hint := match cs with
    | [] => []
    | c :: _ => if c = ' ' || isBreak c then ['2'] else []
  '|' :: hint ++ chompMark cs ++ '\n' :: withMargin indent true cs

/-- A text whose further lines are indented. -/
def textScalar (indent : Nat) (text : String) : String :=
  let cs := text.toList
  String.ofList <|
    match styleOf text with
    | .plain => cs
    | .single => singleQuoted indent cs
    | .double => doubleQuoted cs
    | .literal => literalBlock indent cs

/-- Numbers are written like JSON numbers, but a positive exponent has no sign. -/
def numberLayout : Decimal.NumberLayout := ⟨-5, 15, false⟩

/-- A line, ended unless it ends in a line end already. -/
def endLine (line : String) : String :=
  if (line.toList.getLast?.map isBreak).getD false then line else line ++ "\n"

/-- Whether a key can stand before a colon on one line. -/
def isSimpleKey (key : String) : Bool := !key.toList.any isBreak && key.utf8ByteSize ≤ 128

/-- Blanks as text. -/
def indentation (indent : Nat) : String := String.ofList (margin indent)

/-- Where a value stands: after a dash, where a collection starts on the same line and is indented, or
after a key, where a collection starts on the next line and a sequence is not indented. -/
inductive Place where
  | afterDash | afterKey
deriving DecidableEq, Repr

mutual

/-- A value after the mark in front of it. -/
def valueAt (indent : Nat) (place : Place) : Value → String
  | .null => " null\n"
  | .bool true => " true\n"
  | .bool false => " false\n"
  | .int n => " " ++ Json.intText n ++ "\n"
  | .float x => " " ++ numberLayout.render x ++ "\n"
  | .str text => " " ++ endLine (textScalar (indent + 2) text)
  | .arr [] => " []\n"
  | .arr (item :: rest) =>
    match place with
    | .afterDash => " " ++ items (indent + 2) true (item :: rest)
    | .afterKey => "\n" ++ items indent false (item :: rest)
  | .obj [] => " \x7b\x7d\n"
  | .obj (member :: rest) =>
    match place with
    | .afterDash => " " ++ entries (indent + 2) true (member :: rest)
    | .afterKey => "\n" ++ entries (indent + 2) false (member :: rest)

/-- The items of a sequence, each on its own line. The flag says that the first is indented already. -/
def items (indent : Nat) (indented : Bool) : List Value → String
  | [] => ""
  | item :: rest =>
    (if indented then "" else indentation indent) ++ "-" ++ valueAt indent .afterDash item ++
      items indent false rest

/-- The entries of a mapping, each on its own line. The flag says that the first is indented already. -/
def entries (indent : Nat) (indented : Bool) : List (String × Value) → String
  | [] => ""
  | (key, value) :: rest =>
    (if indented then "" else indentation indent) ++
      (if isSimpleKey key then textScalar (indent + 2) key ++ ":" ++ valueAt indent .afterKey value
      else
        "? " ++ endLine (textScalar (indent + 2) key) ++ indentation indent ++ ":" ++
          valueAt indent .afterDash value) ++
      entries indent false rest

end

/-- A value as a YAML document. -/
def render : Value → String
  | .arr (item :: rest) => items 0 true (item :: rest)
  | .obj (member :: rest) => entries 0 true (member :: rest)
  | value => ((valueAt 0 .afterDash value).drop 1).toString

end ApiScribe.Yaml
