import ApiScribe.Yaml.Character

/-!
# A place in a text

The characters still to be read, with the place of the first of them.
-/

namespace ApiScribe.Yaml

/-- The characters still to be read and how many characters, lines and columns are read already. -/
structure Cursor where
  rest : List Char
  index : Nat := 0
  line : Nat := 0
  column : Nat := 0
deriving DecidableEq, Repr

namespace Cursor

/-- The character at the place. -/
def head? (cursor : Cursor) : Option Char := cursor.rest.head?

/-- The character after the place. -/
def second? (cursor : Cursor) : Option Char := cursor.rest[1]?

/-- Read characters of the same line. -/
def skip (cursor : Cursor) (count : Nat) : Cursor :=
  { cursor with
    rest := cursor.rest.drop count
    index := cursor.index + min count cursor.rest.length
    column := cursor.column + min count cursor.rest.length }

/-- Read the characters of the same line that satisfy a condition. -/
def takeWhile (cursor : Cursor) (p : Char → Bool) : List Char × Cursor :=
  let taken := cursor.rest.takeWhile p
  (taken, cursor.skip taken.length)

/-- Pass over the characters of the same line that satisfy a condition. -/
def skipWhile (cursor : Cursor) (p : Char → Bool) : Cursor := (cursor.takeWhile p).2

/-- The start of the next line. -/
def nextLine (cursor : Cursor) (count : Nat) : Cursor :=
  { rest := cursor.rest.drop count, index := cursor.index + count, line := cursor.line + 1, column := 0 }

/-- Read a line end, if there is one. Line feed, carriage return, both together and U+0085 count as a
line feed. -/
def takeBreak (cursor : Cursor) : List Char × Cursor :=
  match cursor.rest with
  | '\r' :: '\n' :: _ => (['\n'], cursor.nextLine 2)
  | c :: _ =>
    if c == '\u2028' || c == '\u2029' then ([c], cursor.nextLine 1)
    else if isBreak c then (['\n'], cursor.nextLine 1)
    else ([], cursor)
  | [] => ([], cursor)

/-- Pass over a comment, if there is one. -/
def skipComment (cursor : Cursor) : Cursor :=
  if cursor.head? = some '#' then cursor.skipWhile (fun c => !isBreak c) else cursor

/-- Pass over spacing, a comment and the line end, which is all that a line may still hold. -/
def endLine? (cursor : Cursor) : Option Cursor :=
  let cursor := (cursor.skipWhile isSpacing).skipComment
  if isLineEnd cursor.head? then some cursor.takeBreak.2 else none

/-- Whether a document marker stands at the place. -/
def atMarker (cursor : Cursor) : Bool :=
  cursor.column == 0 && startsWithMarker cursor.rest && isGap cursor.rest[3]?

end Cursor

end ApiScribe.Yaml
