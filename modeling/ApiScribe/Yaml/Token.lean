import ApiScribe.Yaml.ScalarText

/-!
# Tokens

A document is cut into tokens. Indentation becomes tokens too: a deeper column opens a block collection,
and coming back closes it. A scalar or flow collection before a `:` is a key although nothing marks it,
so every place where such a key may have started is remembered until the line ends.
-/

namespace ApiScribe.Yaml

/-- A token. -/
inductive Token where
  | version (major minor : Nat)
  | tagDirective (handle lead : String)
  | documentStart
  | documentEnd
  | blockSequenceStart
  | blockMappingStart
  | blockEnd
  | flowSequenceStart
  | flowSequenceEnd
  | flowMappingStart
  | flowMappingEnd
  | blockEntry
  | flowEntry
  | key
  | value
  | reference (name : String)
  | anchor (name : String)
  | tag (handle suffix : String)
  | scalar (text : String) (plain : Bool)
deriving DecidableEq, Repr

/-- A place where an unmarked key may have started. -/
structure PossibleKey where
  /-- The place is the indentation of the current block, so that only a key may stand there. -/
  required : Bool
  /-- How many tokens stand before it. -/
  place : Nat
  index : Nat
  line : Nat
  column : Nat
deriving DecidableEq, Repr

/-- What is read of a document. -/
structure Scan where
  cursor : Cursor
  /-- The tokens, the last one first. -/
  tokens : List Token := []
  /-- How many tokens there are. -/
  count : Nat := 0
  /-- The columns of the open block collections, the innermost first. -/
  indents : List Nat := []
  /-- Whether an unmarked key may start here. -/
  keyAllowed : Bool := true
  /-- Where a key of the innermost flow collection, or of the block, may have started. -/
  key : Option PossibleKey := none
  /-- The same for the enclosing flow collections and the block, the innermost first. -/
  outerKeys : List (Option PossibleKey) := []
deriving Repr

namespace Scan

/-- Whether the place is inside a flow collection. -/
def inFlow (scan : Scan) : Bool := !scan.outerKeys.isEmpty

/-- Add a token. -/
def emit (token : Token) (scan : Scan) : Scan :=
  { scan with tokens := token :: scan.tokens, count := scan.count + 1 }

/-- Add a token after the first `place` tokens. -/
def emitAt (place : Nat) (token : Token) (scan : Scan) : Scan :=
  { scan with
    tokens := scan.tokens.insertIdx (scan.count - place) token
    count := scan.count + 1 }

/-- Go on at another place. -/
def moveTo (cursor : Cursor) (scan : Scan) : Scan := { scan with cursor }

/-- Say whether an unmarked key may start next. -/
def allowKey (allowed : Bool) (scan : Scan) : Scan := { scan with keyAllowed := allowed }

/-- Close a number of block collections. -/
def closeBlocks : Nat → Scan → Scan
  | 0, scan => scan
  | n + 1, scan => closeBlocks n { scan.emit .blockEnd with indents := scan.indents.drop 1 }

/-- Close the block collections right of a column; outside flow collections only. -/
def unindentTo (column : Nat) (scan : Scan) : Scan :=
  if scan.inFlow then scan
  else scan.closeBlocks (scan.indents.takeWhile (column < ·)).length

/-- Close all block collections; outside flow collections only. -/
def unindentAll (scan : Scan) : Scan :=
  if scan.inFlow then scan else scan.closeBlocks scan.indents.length

/-- Open a block collection at a column right of the innermost one; outside flow collections only. -/
def indentTo (column place : Nat) (token : Token) (scan : Scan) : Scan :=
  let deeper := match scan.indents with
    | [] => true
    | innermost :: _ => decide (innermost < column)
  if scan.inFlow || !deeper then scan
  else { scan.emitAt place token with indents := column :: scan.indents }

/-- Give up the key that may have started; not allowed if one is required. -/
def dropKey (scan : Scan) : Option Scan :=
  if (scan.key.map PossibleKey.required).getD false then none else some { scan with key := none }

/-- Remember that a key may start here. -/
def saveKey (scan : Scan) : Option Scan := do
  if scan.keyAllowed then
    let scan ← scan.dropKey
    let required := !scan.inFlow && scan.indents.head? == some scan.cursor.column
    return { scan with
      key := some ⟨required, scan.count, scan.cursor.index, scan.cursor.line, scan.cursor.column⟩ }
  else return scan

/-- How far from its start the colon of an unmarked key may be. -/
def maxKeyLength : Nat := 1024

/-- A key that may have started stays possible on its line and for a limited length. -/
def refreshKey (cursor : Cursor) : Option PossibleKey → Option (Option PossibleKey)
  | none => some none
  | some key =>
    if key.line < cursor.line || key.index + maxKeyLength < cursor.index then
      if key.required then none else some none
    else some (some key)

/-- Give up the keys that are not possible any more. -/
def refreshKeys (scan : Scan) : Option Scan := do
  let key ← refreshKey scan.cursor scan.key
  let outerKeys ← scan.outerKeys.mapM (refreshKey scan.cursor)
  return { scan with key, outerKeys }

/-- Pass over a byte order mark at the start of a line. -/
def skipByteOrderMark (cursor : Cursor) : Cursor :=
  if cursor.column = 0 && cursor.head? = some '\ufeff' then cursor.skip 1 else cursor

/-- Pass over spacing, comments and line ends. A tab is spacing where no unmarked key may start. -/
def toTokenWithin : Nat → Scan → Scan
  | 0, scan => scan
  | fuel + 1, scan =>
    let tabs := scan.inFlow || !scan.keyAllowed
    let start := skipByteOrderMark scan.cursor
    let cursor := (start.skipWhile fun c => c == ' ' || (tabs && c == '\t')).skipComment
    if (cursor.head?.map isBreak).getD false then
      toTokenWithin fuel
        { scan with cursor := cursor.takeBreak.2, keyAllowed := scan.keyAllowed || !scan.inFlow }
    else { scan with cursor }

/-- Pass over what stands before the next token. -/
def toToken (scan : Scan) : Scan := toTokenWithin (scan.cursor.rest.length + 1) scan

/-- Read the digits of a version number, at most nine. -/
def readVersionNumber (cursor : Cursor) : Option (Nat × Cursor) := do
  let (digits, next) := cursor.takeWhile Char.isDigit
  if digits.length ≤ 9 then return (← Text.natOfDigits? 10 digits, next) else none

/-- Read a tag handle: `!`, a name and mostly another `!`. -/
def readHandle (cursor : Cursor) : Option (List Char × Cursor) :=
  if cursor.head? = some '!' then
    let (name, next) := (cursor.skip 1).takeWhile isNameChar
    if next.head? = some '!' then some ('!' :: name ++ ['!'], next.skip 1) else some ('!' :: name, next)
  else none

/-- The characters of a tag. Brackets and commas only stand in some. -/
def isTagChar (brackets : Bool) (c : Char) : Bool :=
  isNameChar c || [';', '/', '?', ':', '@', '&', '=', '+', '$', '.', '!', '~', '*', '\'', '(', ')'].contains c ||
    (brackets && [',', '[', ']'].contains c)

/-- The bytes that a run of escapes `%XX` stands for. -/
def escapedBytes : List Char → List Nat
  | '%' :: high :: low :: rest =>
    match Text.natOfDigits? 16 [high, low] with
    | some byte => byte :: escapedBytes rest
    | none => []
  | _ => []

/-- How many bytes the character has that starts with a byte. -/
def byteWidth? (byte : Nat) : Option Nat :=
  if byte < 0x80 then some 1
  else if byte < 0xC0 then none
  else if byte < 0xE0 then some 2
  else if byte < 0xF0 then some 3
  else if byte < 0xF8 then some 4
  else none

/-- Read the bytes of a character, each written as an escape `%XX`. Only their high bits are checked. -/
def readTagEscape (cursor : Cursor) : Option (List Char × Cursor) := do
  let bytes := escapedBytes (cursor.rest.take 12)
  let width ← byteWidth? (← bytes.head?)
  let bytes := bytes.take width
  if bytes.length = width && (bytes.drop 1).all (fun b => b / 64 == 2) then
    return (bytes.map Char.ofNat, cursor.skip (3 * width))
  else none

/-- Read the characters of a tag, each of which stands for a byte. -/
def tagTextWithin (brackets : Bool) : Nat → List Char → Cursor → Option (List Char × Cursor)
  | 0, text, cursor => some (text.reverse, cursor)
  | fuel + 1, text, cursor =>
    match cursor.head? with
    | none => some (text.reverse, cursor)
    | some c =>
      if c == '%' then do
        let (bytes, next) ← readTagEscape cursor
        tagTextWithin brackets fuel (bytes.reverse ++ text) next
      else if isTagChar brackets c then tagTextWithin brackets fuel (c :: text) (cursor.skip 1)
      else some (text.reverse, cursor)

/-- Read the characters of a tag. -/
def readTagText (brackets : Bool) (cursor : Cursor) : Option (List Char × Cursor) :=
  tagTextWithin brackets cursor.rest.length [] cursor

/-- The text of a tag, which ends before a zero byte. -/
def tagText (bytes : List Char) : String :=
  String.ofList (bytes.takeWhile (·.toNat != 0))

/-- Read a tag that is not empty between angle brackets, or one with a handle, or a local one. -/
def readTag (inFlow : Bool) (cursor : Cursor) : Option (Token × Cursor) := do
  let (token, cursor) ←
    if cursor.second? = some '<' then do
      let (text, cursor) ← readTagText true (cursor.skip 2)
      if !text.isEmpty && cursor.head? = some '>' then some (Token.tag "" (tagText text), cursor.skip 1)
      else none
    else do
      let (handle, cursor) ← readHandle cursor
      let (text, cursor) ← readTagText false cursor
      if 1 < handle.length && handle.getLast? = some '!' then
        if text.isEmpty then none
        else some (Token.tag (String.ofList handle) (tagText text), cursor)
      else
        let suffix := tagText (handle.drop 1 ++ text)
        if suffix.isEmpty then some (Token.tag "" "!", cursor)
        else some (Token.tag "!" suffix, cursor)
  if isGap cursor.head? || (inFlow && cursor.head? = some ',') then some (token, cursor) else none

/-- Read a directive line. -/
def readDirective (cursor : Cursor) : Option (Token × Cursor) := do
  let (name, cursor) := (cursor.skip 1).takeWhile isNameChar
  if !isGap cursor.head? then none
  else
    let cursor := cursor.skipWhile isSpacing
    let (token, cursor) ←
      match String.ofList name with
      | "YAML" => do
        let (major, cursor) ← readVersionNumber cursor
        if cursor.head? = some '.' then
          let (minor, cursor) ← readVersionNumber (cursor.skip 1)
          some (Token.version major minor, cursor)
        else none
      | "TAG" => do
        let (handle, cursor) ← readHandle cursor
        if (handle != ['!'] && handle.getLast? != some '!') || !(cursor.head?.map isSpacing).getD false then none
        else
          let (text, cursor) ← readTagText true (cursor.skipWhile isSpacing)
          if text.isEmpty || !isGap cursor.head? then none
          else some (Token.tagDirective (String.ofList handle) (tagText text), cursor)
      | _ => none
    return (token, ← cursor.endLine?)

/-- Read the name of an anchor or an alias. -/
def readAnchor (cursor : Cursor) : Option (String × Cursor) :=
  let (name, cursor) := (cursor.skip 1).takeWhile isNameChar
  let ends := isGap cursor.head? ||
    (cursor.head?.map ['?', ':', ',', ']', '\x7d', '%', '@', '`'].contains).getD false
  if name.isEmpty || !ends then none else some (String.ofList name, cursor)

/-- A directive or document marker ends all that is open. -/
def atDocumentMark (token : Token) (cursor : Cursor) (scan : Scan) : Option Scan := do
  let scan ← scan.unindentAll.dropKey
  return ((scan.allowKey false).moveTo cursor).emit token

/-- The start of a flow collection. -/
def openFlow (token : Token) (scan : Scan) : Option Scan := do
  let scan ← scan.saveKey
  return { (scan.moveTo (scan.cursor.skip 1)).emit token with
    keyAllowed := true, key := none, outerKeys := scan.key :: scan.outerKeys }

/-- The end of a flow collection. -/
def closeFlow (token : Token) (scan : Scan) : Option Scan := do
  let scan ← scan.dropKey
  let scan := ((scan.allowKey false).moveTo (scan.cursor.skip 1)).emit token
  match scan.outerKeys with
  | [] => return scan
  | key :: outerKeys => return { scan with key, outerKeys }

/-- A comma of a flow collection. -/
def flowEntry (scan : Scan) : Option Scan := do
  let scan ← scan.dropKey
  return ((scan.allowKey true).moveTo (scan.cursor.skip 1)).emit .flowEntry

/-- The dash of a sequence item. -/
def blockEntry (scan : Scan) : Option Scan := do
  if !scan.inFlow && !scan.keyAllowed then none
  else
    let scan ← (scan.indentTo scan.cursor.column scan.count .blockSequenceStart).dropKey
    return ((scan.allowKey true).moveTo (scan.cursor.skip 1)).emit .blockEntry

/-- The question mark of a key. -/
def markedKey (scan : Scan) : Option Scan := do
  if !scan.inFlow && !scan.keyAllowed then none
  else
    let scan ← (scan.indentTo scan.cursor.column scan.count .blockMappingStart).dropKey
    return ((scan.allowKey !scan.inFlow).moveTo (scan.cursor.skip 1)).emit .key

/-- The colon before a value: it makes a key of what may have been one. -/
def mappingValue (scan : Scan) : Option Scan := do
  match scan.key with
  | some key =>
    let scan := (scan.emitAt key.place .key).indentTo key.column key.place .blockMappingStart
    return (({ scan with key := none }.allowKey false).moveTo (scan.cursor.skip 1)).emit .value
  | none =>
    if !scan.inFlow && !scan.keyAllowed then none
    else
      let scan := scan.indentTo scan.cursor.column scan.count .blockMappingStart
      return ((scan.allowKey !scan.inFlow).moveTo (scan.cursor.skip 1)).emit .value

/-- An alias, anchor, tag or quoted scalar, which may start an unmarked key. -/
def inKeyPlace {α : Type} (read : Cursor → Option (α × Cursor)) (token : α → Token) (scan : Scan) :
    Option Scan := do
  let scan ← scan.saveKey
  let (found, cursor) ← read scan.cursor
  return ((scan.allowKey false).moveTo cursor).emit (token found)

/-- A block scalar. -/
def blockScalar (folded : Bool) (scan : Scan) : Option Scan := do
  let scan ← scan.dropKey
  let (text, cursor) ← readBlock folded scan.indents.head? scan.cursor
  return ((scan.allowKey true).moveTo cursor).emit (.scalar text false)

/-- A plain scalar. -/
def plainScalar (scan : Scan) : Option Scan := do
  let scan ← scan.saveKey
  let margin := (scan.indents.head?.map (· + 1)).getD 0
  let (text, crossesLine, cursor) ← readPlain scan.inFlow margin scan.cursor
  return ((scan.allowKey crossesLine).moveTo cursor).emit (.scalar text true)

/-- The characters that cannot start a plain scalar. -/
def isIndicator (c : Char) : Bool :=
  ['-', '?', ':', ',', '[', ']', '\x7b', '\x7d', '#', '&', '*', '!', '|', '>', '\'', '"', '%', '@', '`'].contains c

/-- Read the token that starts with a character. -/
def tokenAt (c : Char) (scan : Scan) : Option Scan :=
  let next := scan.cursor.second?
  let apart := isGap next
  if scan.cursor.column = 0 && c == '%' then do
    let (token, cursor) ← readDirective scan.cursor
    scan.atDocumentMark token cursor
  else if scan.cursor.atMarker then
    scan.atDocumentMark (if c == '-' then .documentStart else .documentEnd) (scan.cursor.skip 3)
  else if c == '[' then scan.openFlow .flowSequenceStart
  else if c == '\x7b' then scan.openFlow .flowMappingStart
  else if c == ']' then scan.closeFlow .flowSequenceEnd
  else if c == '\x7d' then scan.closeFlow .flowMappingEnd
  else if c == ',' then scan.flowEntry
  else if c == '-' && apart then scan.blockEntry
  else if c == '?' && (scan.inFlow || apart) then scan.markedKey
  else if c == ':' && (scan.inFlow || apart) then scan.mappingValue
  else if c == '*' then scan.inKeyPlace readAnchor .reference
  else if c == '&' then scan.inKeyPlace readAnchor .anchor
  else if c == '!' then scan.inKeyPlace (readTag scan.inFlow) id
  else if c == '|' && !scan.inFlow then scan.blockScalar false
  else if c == '>' && !scan.inFlow then scan.blockScalar true
  else if c == '\'' then scan.inKeyPlace readSingle (.scalar · false)
  else if c == '"' then scan.inKeyPlace readDouble (.scalar · false)
  else if !(isGap (some c) || isIndicator c) || c == '-' || (!scan.inFlow && (c == '?' || c == ':')) then
    scan.plainScalar
  else none

/-- Read tokens to the end of the text. -/
def toEnd : Nat → Scan → Option Scan
  | 0, _ => none
  | fuel + 1, scan => do
    let scan ← scan.toToken.refreshKeys
    let scan := scan.unindentTo scan.cursor.column
    match scan.cursor.head? with
    | none => scan.unindentAll.dropKey
    | some c => toEnd fuel (← scan.tokenAt c)

end Scan

/-- The tokens of a text. -/
def Token.ofText? (text : String) : Option (List Token) := do
  let cs := text.toList
  if cs.all isReadable then
    let scan ← Scan.toEnd (cs.length + 2) { cursor := { rest := cs } }
    return scan.tokens.reverse
  else none

end ApiScribe.Yaml
