import ApiScribe.Decimal.Shortest
import ApiScribe.Json.Value

/-!
# Writing JSON text

Compact text has no white space. Pretty text puts each item on a line of its own, indented by
two spaces a level, with an empty container kept on one line. Strings escape the quote, the
backslash and the controls below U+0020 only.
-/

namespace ApiScribe.Json

/-- Numbers from `1e-5` up to `1e15` have no exponent, and a positive exponent shows its sign. -/
def numberLayout : Decimal.NumberLayout := ⟨-5, 15, true⟩

/-- A lower-case hexadecimal digit. -/
def hexDigit (n : Nat) : Char :=
  if n < 10 then Char.ofNat ('0'.toNat + n) else Char.ofNat ('a'.toNat + (n - 10))

/-- The written form of one character of a string. -/
def escapeChar (c : Char) : List Char :=
  match c with
  | '"' => ['\\', '"']
  | '\\' => ['\\', '\\']
  | '\x08' => ['\\', 'b']
  | '\x0c' => ['\\', 'f']
  | '\n' => ['\\', 'n']
  | '\r' => ['\\', 'r']
  | '\t' => ['\\', 't']
  | c =>
    if c.toNat < 0x20 then ['\\', 'u', '0', '0', hexDigit (c.toNat / 16), hexDigit (c.toNat % 16)]
    else [c]

/-- A string between quotes. -/
def quote (s : String) : String :=
  "\"" ++ String.ofList (s.toList.flatMap escapeChar) ++ "\""

/-- The text of an integer. -/
def intText (n : Int) : String :=
  if n < 0 then "-" ++ Text.decimal n.natAbs else Text.decimal n.natAbs

mutual

/-- The text of a value without white space. -/
def Value.compact : Value → String
  | .null => "null"
  | .bool true => "true"
  | .bool false => "false"
  | .int n => intText n
  | .float x => numberLayout.render x
  | .str s => quote s
  | .arr items => "[" ++ compactItems items ++ "]"
  | .obj members => "\x7b" ++ compactMembers members ++ "\x7d"

/-- The items of an array, separated by commas. -/
def compactItems : List Value → String
  | [] => ""
  | [item] => item.compact
  | item :: rest => item.compact ++ "," ++ compactItems rest

/-- The members of an object, separated by commas. -/
def compactMembers : List (String × Value) → String
  | [] => ""
  | [(key, value)] => quote key ++ ":" ++ value.compact
  | (key, value) :: rest => quote key ++ ":" ++ value.compact ++ "," ++ compactMembers rest

end

/-- A line break followed by the indentation of a level. -/
def newline (level : Nat) : String :=
  String.ofList ('\n' :: List.replicate (2 * level) ' ')

mutual

/-- The text of a value laid out over lines, starting at the given level. -/
def Value.prettyAt (level : Nat) : Value → String
  | .arr (item :: rest) => "[" ++ prettyItems (level + 1) (item :: rest) ++ newline level ++ "]"
  | .obj (member :: rest) => "\x7b" ++ prettyMembers (level + 1) (member :: rest) ++ newline level ++ "\x7d"
  | value => value.compact

/-- The items of an array, each on its own line. -/
def prettyItems (level : Nat) : List Value → String
  | [] => ""
  | [item] => newline level ++ item.prettyAt level
  | item :: rest => newline level ++ item.prettyAt level ++ "," ++ prettyItems level rest

/-- The members of an object, each on its own line. -/
def prettyMembers (level : Nat) : List (String × Value) → String
  | [] => ""
  | [(key, value)] => newline level ++ quote key ++ ": " ++ value.prettyAt level
  | (key, value) :: rest =>
    newline level ++ quote key ++ ": " ++ value.prettyAt level ++ "," ++ prettyMembers level rest

end

/-- The text of a value laid out over lines. -/
def Value.pretty (value : Value) : String :=
  value.prettyAt 0

end ApiScribe.Json
