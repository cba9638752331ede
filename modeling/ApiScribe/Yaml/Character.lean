/-!
# Classes of characters

Which characters end a line, separate words, may be read at all, and are written as they are.
-/

namespace ApiScribe.Yaml

/-- The characters that end a line. -/
def isBreak (c : Char) : Bool :=
  c == '\n' || c == '\r' || c == '\u0085' || c == '\u2028' || c == '\u2029'

/-- Spaces and tabs. -/
def isSpacing (c : Char) : Bool := c == ' ' || c == '\t'

/-- Whether a line ends here: at a line end or the end of the text. -/
def isLineEnd : Option Char → Bool
  | none => true
  | some c => isBreak c

/-- Whether a word ends here: at spacing, a line end or the end of the text. -/
def isGap : Option Char → Bool
  | none => true
  | some c => isSpacing c || isBreak c || c == '\x00'

/-- The characters that may stand in a document. -/
def isReadable (c : Char) : Bool :=
  let n := c.toNat
  n == 0x09 || n == 0x0A || n == 0x0D || (0x20 ≤ n && n ≤ 0x7E) || n == 0x85 ||
    (0xA0 ≤ n && n ≤ 0xD7FF) || (0xE000 ≤ n && n ≤ 0xFFFD) || 0x10000 ≤ n

/-- The characters that are written as they are. -/
def isPrintable (c : Char) : Bool :=
  let n := c.toNat
  n == 0x0A || (0x20 ≤ n && n ≤ 0x7E) || (0xA0 ≤ n && n ≤ 0xD7FF) ||
    (0xE000 ≤ n && n ≤ 0xFFFD && n != 0xFEFF) || 0x10000 ≤ n

/-- The characters of the names of anchors, directives and tag handles. -/
def isNameChar (c : Char) : Bool := c.isAlphanum || c == '_' || c == '-'

/-- Whether the text starts with three dashes or three points. -/
def startsWithMarker : List Char → Bool
  | '-' :: '-' :: '-' :: _ => true
  | '.' :: '.' :: '.' :: _ => true
  | _ => false

end ApiScribe.Yaml
