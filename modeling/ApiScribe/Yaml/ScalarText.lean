import ApiScribe.Text.Basic
import ApiScribe.Yaml.Cursor

/-!
# The text of scalars

Reading the text of quoted, plain and block scalars. In quoted and plain scalars a single line end reads
as a blank and further ones as line feeds; block scalars keep their lines, or fold them alike.
-/

namespace ApiScribe.Yaml

/-- The spacing and line ends between two words. -/
structure Gap where
  /-- The spacing before the first line end. -/
  spacing : List Char := []
  /-- Whether there is a line end. -/
  crossesLine : Bool := false
  /-- The first line end. -/
  first : List Char := []
  /-- The further line ends. -/
  further : List Char := []
deriving DecidableEq, Repr

/-- Line ends folded: a single line feed is a blank. -/
def foldBreaks (first further : List Char) : List Char :=
  if first.head? = some '\n' then (if further.isEmpty then [' '] else further) else first ++ further

/-- What a gap reads as. -/
def Gap.text (gap : Gap) : List Char :=
  if gap.crossesLine then foldBreaks gap.first gap.further else gap.spacing

/-- Read spacing and line ends. In lines after the first, no tab may stand before the given column. -/
def gapWithin (margin : Nat) : Nat → Gap → Cursor → Option (Gap × Cursor)
  | 0, gap, cursor => some (gap, cursor)
  | fuel + 1, gap, cursor =>
    match cursor.head? with
    | none => some (gap, cursor)
    | some c =>
      if isSpacing c then
        if !gap.crossesLine then
          gapWithin margin fuel { gap with spacing := gap.spacing ++ [c] } (cursor.skip 1)
        else if c == '\t' && decide (cursor.column < margin) then none
        else gapWithin margin fuel gap (cursor.skip 1)
      else if isBreak c then
        let (text, next) := cursor.takeBreak
        if gap.crossesLine then gapWithin margin fuel { gap with further := gap.further ++ text } next
        else gapWithin margin fuel { gap with spacing := [], crossesLine := true, first := text } next
      else some (gap, cursor)

/-- Read spacing and line ends after what is read of the gap already. -/
def readGap (margin : Nat) (gap : Gap) (cursor : Cursor) : Option (Gap × Cursor) :=
  gapWithin margin cursor.rest.length gap cursor

/-- The character that a letter after a backslash stands for. -/
def escapedChar? : Char → Option Char
  | '0' => some '\x00'
  | 'a' => some '\x07'
  | 'b' => some '\x08'
  | 't' => some '\t'
  | '\t' => some '\t'
  | 'n' => some '\n'
  | 'v' => some '\x0b'
  | 'f' => some '\x0c'
  | 'r' => some '\r'
  | 'e' => some '\x1b'
  | ' ' => some ' '
  | '"' => some '"'
  | '/' => some '/'
  | '\\' => some '\\'
  | 'N' => some '\u0085'
  | '_' => some '\u00a0'
  | 'L' => some '\u2028'
  | 'P' => some '\u2029'
  | _ => none

/-- How many hexadecimal digits follow a letter after a backslash. -/
def escapeWidth? : Char → Option Nat
  | 'x' => some 2
  | 'u' => some 4
  | 'U' => some 8
  | _ => none

/-- The character with a code, unless the code belongs to none. -/
def charOfCode? (code : Nat) : Option Char :=
  if code.isValidChar then some (Char.ofNat code) else none

/-- Read an escape after its backslash. -/
def readEscape (cursor : Cursor) : Option (Char × Cursor) := do
  let letter ← cursor.head?
  match escapeWidth? letter with
  | none => return (← escapedChar? letter, cursor.skip 1)
  | some width =>
    let digits := (cursor.rest.drop 1).take width
    if digits.length = width then
      let code ← Text.natOfDigits? 16 digits
      return (← charOfCode? code, cursor.skip (1 + width))
    else none

/-- Read a scalar between single quotes after the first quote. The text so far is reversed. -/
def singleWithin : Nat → List Char → Cursor → Option (String × Cursor)
  | 0, _, _ => none
  | fuel + 1, text, cursor =>
    if cursor.atMarker then none
    else
      match cursor.rest with
      | [] => none
      | '\'' :: '\'' :: _ => singleWithin fuel ('\'' :: text) (cursor.skip 2)
      | '\'' :: _ => some (String.ofList text.reverse, cursor.skip 1)
      | c :: _ =>
        if isGap (some c) then do
          let (gap, next) ← readGap 0 {} cursor
          singleWithin fuel (gap.text.reverse ++ text) next
        else singleWithin fuel (c :: text) (cursor.skip 1)

/-- Read a scalar between double quotes after the first quote. The text so far is reversed. -/
def doubleWithin : Nat → List Char → Cursor → Option (String × Cursor)
  | 0, _, _ => none
  | fuel + 1, text, cursor =>
    if cursor.atMarker then none
    else
      match cursor.rest with
      | [] => none
      | '"' :: _ => some (String.ofList text.reverse, cursor.skip 1)
      | '\\' :: _ =>
        if (cursor.second?.map isBreak).getD false then do
          let (gap, next) ← readGap 0 { crossesLine := true } (cursor.skip 1).takeBreak.2
          doubleWithin fuel (gap.text.reverse ++ text) next
        else do
          let (c, next) ← readEscape (cursor.skip 1)
          doubleWithin fuel (c :: text) next
      | c :: _ =>
        if isGap (some c) then do
          let (gap, next) ← readGap 0 {} cursor
          doubleWithin fuel (gap.text.reverse ++ text) next
        else doubleWithin fuel (c :: text) (cursor.skip 1)

/-- Read a scalar between single quotes. -/
def readSingle (cursor : Cursor) : Option (String × Cursor) :=
  singleWithin cursor.rest.length [] (cursor.skip 1)

/-- Read a scalar between double quotes. -/
def readDouble (cursor : Cursor) : Option (String × Cursor) :=
  doubleWithin cursor.rest.length [] (cursor.skip 1)

/-- The brackets and the comma, which mean something in flow collections only. -/
def isFlowMark (c : Char) : Bool :=
  c == ',' || c == '[' || c == ']' || c == '\x7b' || c == '\x7d'

/-- Whether a plain scalar ends before the character at the place. -/
def endsPlain (inFlow : Bool) (c : Char) (next : Option Char) : Bool :=
  (c == ':' && isGap next) || (inFlow && isFlowMark c)

/-- Whether a colon stands where a flow collection does not allow it. -/
def isStrayColon (inFlow : Bool) (c : Char) (next : Option Char) : Bool :=
  inFlow && c == ':' && (next.map fun d => isFlowMark d || d == '?').getD false

/-- Read the rest of a plain scalar, given the gap after the text so far, which is reversed. Gives back
whether a line end follows the scalar. -/
def plainWithin (inFlow : Bool) (margin : Nat) :
    Nat → List Char → Option Gap → Cursor → Option (String × Bool × Cursor)
  | 0, _, _, _ => none
  | fuel + 1, text, gap, cursor =>
    let ended : Option (String × Bool × Cursor) :=
      some (String.ofList text.reverse, (gap.map Gap.crossesLine).getD false, cursor)
    match cursor.head? with
    | none => ended
    | some c =>
      if cursor.atMarker || (gap.isSome && c == '#') then ended
      else if isGap (some c) then do
        let (found, next) ← readGap margin {} cursor
        if !inFlow && decide (next.column < margin) then
          some (String.ofList text.reverse, found.crossesLine, next)
        else plainWithin inFlow margin fuel text (some found) next
      else if isStrayColon inFlow c cursor.second? then none
      else if endsPlain inFlow c cursor.second? then ended
      else
        let before := ((gap.map Gap.text).getD []).reverse
        plainWithin inFlow margin fuel (c :: (before ++ text)) none (cursor.skip 1)

/-- Read a plain scalar whose further lines start at the margin or right of it. -/
def readPlain (inFlow : Bool) (margin : Nat) (cursor : Cursor) : Option (String × Bool × Cursor) :=
  plainWithin inFlow margin (2 * cursor.rest.length + 1) [] none cursor

/-- What becomes of the line ends after a block scalar. -/
inductive Chomping where
  /-- None is kept. -/
  | strip
  /-- One is kept. -/
  | clip
  /-- All are kept. -/
  | keep
deriving DecidableEq, Repr

/-- Read an indentation digit, which is not zero, if there is a digit. -/
def readIndentDigit (cursor : Cursor) : Option (Option Nat × Cursor) :=
  match cursor.head? with
  | some c =>
    if c == '0' then none
    else if c.isDigit then some (some (c.toNat - '0'.toNat), cursor.skip 1)
    else some (none, cursor)
  | none => some (none, cursor)

/-- Read a chomping sign, if there is one. -/
def readChomping (cursor : Cursor) : Option Chomping × Cursor :=
  match cursor.head? with
  | some '+' => (some .keep, cursor.skip 1)
  | some '-' => (some .strip, cursor.skip 1)
  | _ => (none, cursor)

/-- Read the signs after the `|` or `>` of a block scalar, in any order. -/
def readBlockHeader (cursor : Cursor) : Option (Option Nat × Chomping × Cursor) := do
  match readChomping cursor with
  | (some chomping, cursor) =>
    let (digit, cursor) ← readIndentDigit cursor
    return (digit, chomping, cursor)
  | (none, cursor) =>
    let (digit, cursor) ← readIndentDigit cursor
    match digit with
    | none => return (none, .clip, cursor)
    | some _ =>
      let (chomping, cursor) := readChomping cursor
      return (digit, chomping.getD .clip, cursor)

/-- Read empty lines and the indentation after them. Without a known indentation all blanks are
indentation, and the widest line so far is given back. -/
def emptyLinesWithin (indent : Option Nat) :
    Nat → Nat → List Char → Cursor → Option (Nat × List Char × Cursor)
  | 0, _, _, _ => none
  | fuel + 1, widest, breaks, cursor =>
    let blanks := (cursor.takeWhile (· == ' ')).1.length
    let cursor :=
      match indent with
      | none => cursor.skip blanks
      | some n => cursor.skip (min blanks (n - cursor.column))
    let widest := max widest cursor.column
    let indenting := match indent with
      | none => true
      | some n => decide (cursor.column < n)
    match cursor.head? with
    | none => some (widest, breaks, cursor)
    | some c =>
      if indenting && c == '\t' then none
      else if isBreak c then
        let (text, next) := cursor.takeBreak
        emptyLinesWithin indent fuel widest (breaks ++ text) next
      else some (widest, breaks, cursor)

/-- Read empty lines and the indentation after them. -/
def readEmptyLines (indent : Option Nat) (cursor : Cursor) : Option (Nat × List Char × Cursor) :=
  emptyLinesWithin indent (cursor.rest.length + 1) 0 [] cursor

/-- The lines of a block scalar that are read already. -/
structure BlockText where
  /-- The text of the lines, without the end of the last. -/
  text : List Char := []
  /-- The end of the last line. -/
  lastBreak : List Char := []
  /-- The line ends of the empty lines after it. -/
  emptyLines : List Char := []
  /-- Whether the last line starts with spacing. -/
  spaced : Bool := false
deriving DecidableEq, Repr

/-- What stands between the lines so far and the next line. -/
def BlockText.seam (block : BlockText) (folded spaced : Bool) : List Char :=
  if folded && block.lastBreak.head? == some '\n' && !block.spaced && !spaced then
    foldBreaks block.lastBreak block.emptyLines
  else block.lastBreak ++ block.emptyLines

/-- Read the lines of a block scalar. -/
def blockLinesWithin (folded : Bool) (indent : Nat) :
    Nat → BlockText → Cursor → Option (BlockText × Cursor)
  | 0, _, _ => none
  | fuel + 1, block, cursor =>
    if cursor.column = indent && cursor.head?.isSome then do
      let spaced := (cursor.head?.map isSpacing).getD false
      let (line, cursor) := cursor.takeWhile (fun c => !isBreak c)
      let (lastBreak, cursor) := cursor.takeBreak
      let (_, emptyLines, cursor) ← readEmptyLines (some indent) cursor
      blockLinesWithin folded indent fuel
        { text := block.text ++ block.seam folded spaced ++ line, lastBreak, emptyLines, spaced } cursor
    else some (block, cursor)

/-- The text of a block scalar with its last line ends treated as the header says. -/
def BlockText.chomped (block : BlockText) : Chomping → List Char
  | .strip => block.text
  | .clip => block.text ++ block.lastBreak
  | .keep => block.text ++ block.lastBreak ++ block.emptyLines

/-- Read a block scalar inside a block with the given indentation. -/
def readBlock (folded : Bool) (outer : Option Nat) (cursor : Cursor) : Option (String × Cursor) := do
  let (digit, chomping, cursor) ← readBlockHeader (cursor.skip 1)
  let cursor ← cursor.endLine?
  let stated := digit.map (outer.getD 0 + ·)
  let (widest, emptyLines, cursor) ← readEmptyLines stated cursor
  let indent := stated.getD (max (max widest ((outer.map (· + 1)).getD 0)) 1)
  let (block, cursor) ← blockLinesWithin folded indent (cursor.rest.length + 1) { emptyLines } cursor
  return (String.ofList (block.chomped chomping), cursor)

end ApiScribe.Yaml
