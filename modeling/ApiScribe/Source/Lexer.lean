import ApiScribe.Source.Token
import ApiScribe.Text.Basic
import ApiScribe.Text.Ident

/-!
# Reading Rust text into token trees

Each reader takes the characters in front of it and returns the rest, or `none` where nothing
of its sort stands. Comments are skipped, except documentation comments, which are the tokens of
a `doc` attribute. A line ends at a line feed, with or without a carriage return before it; a
carriage return elsewhere in a documentation comment or a text literal is refused.
-/

namespace ApiScribe.Source

/-- White space between tokens, the two direction marks included. -/
def isGap (c : Char) : Bool :=
  Text.isBlank c || c.toNat == 0x200E || c.toNat == 0x200F

/-- Whether the text begins with these characters. -/
def begins (lead : String) (cs : List Char) : Bool :=
  (Text.stripLead lead.toList cs).isSome

/-- The characters up to the end of the line, and what follows from the line feed on. -/
def restOfLine : List Char → List Char × List Char
  | [] => ([], [])
  | '\n' :: cs => ([], '\n' :: cs)
  | '\r' :: '\n' :: cs => ([], '\n' :: cs)
  | c :: cs =>
    let (line, rest) := restOfLine cs
    (c :: line, rest)

/-- Read a block comment after its opening `/*`; nested comments must close too.

The content lacks the last `*/`. -/
def blockComment : Nat → List Char → Option (List Char × List Char)
  | _, [] => none
  | depth, '/' :: '*' :: cs => (blockComment (depth + 1) cs).map fun (body, rest) => ('/' :: '*' :: body, rest)
  | 0, '*' :: '/' :: cs => some ([], cs)
  | depth + 1, '*' :: '/' :: cs => (blockComment depth cs).map fun (body, rest) => ('*' :: '/' :: body, rest)
  | depth, c :: cs => (blockComment depth cs).map fun (body, rest) => (c :: body, rest)

/-- Drop white space and comments that are not documentation. -/
def skipGaps : Nat → List Char → List Char
  | 0, cs => cs
  | fuel + 1, cs =>
    if begins "//" cs && (!begins "///" cs || begins "////" cs) && !begins "//!" cs then
      skipGaps fuel (restOfLine cs).2
    else if begins "/**/" cs then skipGaps fuel (cs.drop 4)
    else if begins "/*" cs && (!begins "/**" cs || begins "/***" cs) && !begins "/*!" cs then
      match blockComment 0 (cs.drop 2) with
      | some (_, rest) => skipGaps fuel rest
      | none => cs
    else
      match cs with
      | c :: rest => if isGap c then skipGaps fuel rest else cs
      | [] => []

/-- Whether every carriage return is followed by a line feed. -/
def noBareReturn : List Char → Bool
  | [] => true
  | '\r' :: '\n' :: cs => noBareReturn cs
  | '\r' :: _ => false
  | _ :: cs => noBareReturn cs

/-- The tokens of a documentation comment. -/
def docTokens (inner : Bool) (text : List Char) : List FlatToken :=
  let bang := if inner then [FlatToken.leaf (.punct '!' false)] else []
  [.leaf (.punct '#' false)] ++ bang ++
    [.opening .bracket, .leaf (.ident "doc"), .leaf (.punct '=' false),
     .leaf (.literal (.text (String.ofList text))), .closing .bracket]

/-- Read a documentation comment. -/
def docComment (cs : List Char) : Option (List FlatToken × List Char) := do
  let (inner, text, rest) ←
    if begins "//!" cs then
      let (text, rest) := restOfLine (cs.drop 3)
      some (true, text, rest)
    else if begins "/*!" cs then
      (blockComment 0 (cs.drop 2)).map fun (text, rest) => (true, text.drop 1, rest)
    else if begins "///" cs && !begins "////" cs then
      let (text, rest) := restOfLine (cs.drop 3)
      some (false, text, rest)
    else if begins "/**" cs && !begins "/***" cs && !begins "/**/" cs then
      (blockComment 0 (cs.drop 2)).map fun (text, rest) => (false, text.drop 1, rest)
    else none
  if noBareReturn text then some (docTokens inner text, rest) else none

/-- Read an identifier that is not raw. -/
def plainIdent : List Char → Option (List Char × List Char)
  | [] => none
  | c :: cs =>
    if Text.isIdentStart c then
      some (c :: cs.takeWhile Text.isIdentContinue, cs.dropWhile Text.isIdentContinue)
    else none

/-- Read an identifier, raw or not. -/
def anyIdent (cs : List Char) : Option (List Char × List Char) :=
  match cs with
  | 'r' :: '#' :: raw => do
    let (name, rest) ← plainIdent raw
    if ["_", "super", "self", "Self", "crate"].contains (String.ofList name) then none
    else some ('r' :: '#' :: name, rest)
  | cs => plainIdent cs

/-- Drop the suffix of a literal. -/
def dropSuffix (cs : List Char) : List Char :=
  match plainIdent cs with
  | some (_, rest) => rest
  | none => cs

/-- What may stand between the quotes of a literal. -/
structure QuoteRules where
  /-- Whether `\u{...}` is allowed. -/
  unicode : Bool
  /-- Whether `\x` is limited to ASCII. -/
  asciiHex : Bool
  /-- Whether the literal is limited to ASCII. -/
  asciiOnly : Bool
  /-- Whether the character with number zero is allowed, written or escaped. -/
  zero : Bool

/-- Texts and characters. -/
def textRules : QuoteRules := ⟨true, true, false, true⟩

/-- Byte strings and bytes. -/
def byteRules : QuoteRules := ⟨false, false, true, true⟩

/-- C strings, which end at a zero. -/
def cRules : QuoteRules := ⟨true, false, false, false⟩

/-- Whether a character may stand in a literal as it is. -/
def QuoteRules.admits (rules : QuoteRules) (c : Char) : Bool :=
  !(rules.asciiOnly && 0x80 ≤ c.toNat) && (rules.zero || c.toNat != 0)

/-- Read the digits of `\u{...}` after the opening brace. -/
def unicodeEscape : List Char → (value count : Nat) → Option (Char × List Char)
  | [], _, _ => none
  | c :: cs, value, count =>
    if c == '\x7d' && count != 0 then
      if Nat.isValidChar value then some (Char.ofNat value, cs) else none
    else if c == '_' && count != 0 then unicodeEscape cs value count
    else
      match Text.digitValue? 16 c with
      | some digit => if count = 6 then none else unicodeEscape cs (value * 16 + digit) (count + 1)
      | none => none

/-- The character that an escape after its backslash stands for. -/
def escapedChar (rules : QuoteRules) : List Char → Option (Char × List Char)
  | 'n' :: cs => some ('\n', cs)
  | 'r' :: cs => some ('\r', cs)
  | 't' :: cs => some ('\t', cs)
  | '\\' :: cs => some ('\\', cs)
  | '0' :: cs => some (Char.ofNat 0, cs)
  | '\'' :: cs => some ('\'', cs)
  | '"' :: cs => some ('"', cs)
  | 'x' :: a :: b :: cs => do
    let high ← Text.digitValue? 16 a
    let low ← Text.digitValue? 16 b
    if rules.asciiHex && 8 ≤ high then none else some (Char.ofNat (16 * high + low), cs)
  | 'u' :: '\x7b' :: cs => if rules.unicode then unicodeEscape cs 0 0 else none
  | _ => none

/-- Read one escape after its backslash. -/
def readEscape (rules : QuoteRules) (cs : List Char) : Option (Char × List Char) := do
  let (c, rest) ← escapedChar rules cs
  if c.toNat = 0 && !rules.zero then none else some (c, rest)

/-- Drop the white space after a backslash at the end of a line. -/
def skipContinuation : List Char → Option (List Char)
  | [] => none
  | '\r' :: '\n' :: cs => skipContinuation cs
  | '\r' :: _ => none
  | c :: cs => if c == ' ' || c == '\t' || c == '\n' then skipContinuation cs else some (c :: cs)

/-- Read a quoted literal after its opening quote: its value and what follows its suffix. -/
def quotedLiteral (rules : QuoteRules) : Nat → List Char → Option (List Char × List Char)
  | 0, _ => none
  | _ + 1, [] => none
  | _ + 1, '"' :: cs => some ([], dropSuffix cs)
  | fuel + 1, '\r' :: '\n' :: cs =>
    (quotedLiteral rules fuel cs).map fun (value, rest) => ('\n' :: value, rest)
  | _ + 1, '\r' :: _ => none
  | fuel + 1, '\\' :: '\n' :: cs => do
    let cs ← skipContinuation cs
    quotedLiteral rules fuel cs
  | fuel + 1, '\\' :: '\r' :: '\n' :: cs => do
    let cs ← skipContinuation cs
    quotedLiteral rules fuel cs
  | fuel + 1, '\\' :: cs => do
    let (c, cs) ← readEscape rules cs
    let (value, rest) ← quotedLiteral rules fuel cs
    return (c :: value, rest)
  | fuel + 1, c :: cs =>
    if rules.admits c then (quotedLiteral rules fuel cs).map fun (value, rest) => (c :: value, rest)
    else none

/-- Read the body of a raw literal up to a quote followed by the given hashes. -/
def rawBody (rules : QuoteRules) (hashes : List Char) : List Char → Option (List Char × List Char)
  | [] => none
  | '\r' :: '\n' :: cs =>
    (rawBody rules hashes cs).map fun (value, rest) => ('\r' :: '\n' :: value, rest)
  | '\r' :: _ => none
  | c :: cs =>
    if c == '"' && (Text.stripLead hashes cs).isSome then some ([], dropSuffix (cs.drop hashes.length))
    else if rules.admits c then (rawBody rules hashes cs).map fun (value, rest) => (c :: value, rest)
    else none

/-- Read a raw literal after its `r`. -/
def rawLiteral (rules : QuoteRules) (cs : List Char) : Option (List Char × List Char) :=
  let hashes := cs.takeWhile (· == '#')
  match cs.dropWhile (· == '#') with
  | '"' :: body => if hashes.length ≤ 255 then rawBody rules hashes body else none
  | _ => none

/-- Read a character or byte literal after its opening quote. -/
def charLiteral (rules : QuoteRules) (cs : List Char) : Option (List Char) := do
  let rest ←
    match cs with
    | '\\' :: cs => (readEscape rules cs).map Prod.snd
    | c :: cs => if rules.admits c then some cs else none
    | [] => none
  match rest with
  | '\'' :: rest => some (dropSuffix rest)
  | _ => none

/-- Read the digits and the sign of an exponent; `none` when it has no digit. -/
def exponentDigits : List Char → (signed valued : Bool) → Option (List Char)
  | [], _, valued => if valued then some [] else none
  | c :: cs, signed, valued =>
    if c == '+' || c == '-' then
      if valued then some (c :: cs) else if signed then none else exponentDigits cs true valued
    else if c.isDigit then exponentDigits cs signed true
    else if c == '_' then exponentDigits cs signed valued
    else if valued then some (c :: cs)
    else none

/-- Drop a run of digits and underscores. -/
def dropDigits (cs : List Char) : List Char :=
  cs.dropWhile fun c => c.isDigit || c == '_'

/-- What follows the suffix of a number, which must end the word. -/
def endOfNumber (cs : List Char) : Option (List Char) :=
  match dropSuffix cs with
  | [] => some []
  | c :: rest => if Text.isIdentContinue c then none else some (c :: rest)

/-- Read the digits of a number with a point or an exponent. -/
def floatDigits (cs : List Char) : Option (List Char) :=
  match cs with
  | c :: _ =>
    if !c.isDigit then none
    else
      let whole := dropDigits cs
      let pointed : Option (List Char) :=
        match whole with
        | '.' :: after =>
          match after with
          | d :: _ => if d == '.' || Text.isIdentStart d then none else some (dropDigits after)
          | [] => some []
        | _ => none
      match whole, pointed with
      | '.' :: _, none => none
      | _, _ =>
        let mantissa := pointed.getD whole
        match mantissa with
        | e :: after =>
          if e == 'e' || e == 'E' then
            match exponentDigits after false false with
            | some rest => some rest
            | none => pointed
          else pointed
        | [] => pointed
  | [] => none

/-- Read a number with a point or an exponent. -/
def floatLiteral (cs : List Char) : Option (Literal × List Char) := do
  let rest ← endOfNumber (← floatDigits cs)
  return (.float (String.ofList (cs.take (cs.length - rest.length))), rest)

/-- Read the digits of an integer in the given base, `value` being that of the digits so far. -/
def intDigits (base : Nat) : List Char → (value : Nat) → (empty : Bool) → Option (Nat × List Char)
  | [], value, empty => if empty then none else some (value, [])
  | c :: cs, value, empty =>
    if c == '_' then
      if empty && base == 10 then none else intDigits base cs value empty
    else
      match Text.digitValue? (max base 10) c with
      | some digit => if base ≤ digit then none else intDigits base cs (value * base + digit) false
      | none => if empty then none else some (value, c :: cs)

/-- Read an integer. -/
def intLiteral (cs : List Char) : Option (Literal × List Char) := do
  let (value, digitsEnd) ←
    match cs with
    | '0' :: 'x' :: rest => intDigits 16 rest 0 true
    | '0' :: 'o' :: rest => intDigits 8 rest 0 true
    | '0' :: 'b' :: rest => intDigits 2 rest 0 true
    | cs => intDigits 10 cs 0 true
  let rest ← endOfNumber digitsEnd
  return (.integer value (plainIdent digitsEnd).isSome, rest)

/-- Read a literal in quotes, of at most `limit` characters. -/
def quoted (limit : Nat) (cs : List Char) : Option (Literal × List Char) :=
  let text : Option (List Char × List Char) → Option (Literal × List Char) :=
    Option.map fun (value, rest) => (.text (String.ofList value), rest)
  let other : Option (List Char × List Char) → Option (Literal × List Char) :=
    Option.map fun (_, rest) => (.other, rest)
  let char : Option (List Char) → Option (Literal × List Char) := Option.map fun rest => (.other, rest)
  match cs with
  | '"' :: body => text (quotedLiteral textRules limit body)
  | 'r' :: body => text (rawLiteral textRules body)
  | 'b' :: '"' :: body => other (quotedLiteral byteRules limit body)
  | 'b' :: 'r' :: body => other (rawLiteral byteRules body)
  | 'c' :: '"' :: body => other (quotedLiteral cRules limit body)
  | 'c' :: 'r' :: body => other (rawLiteral cRules body)
  | 'b' :: '\'' :: body => char (charLiteral byteRules body)
  | '\'' :: body => char (charLiteral textRules body)
  | _ => none

/-- Read a literal, of at most `limit` characters if it is in quotes. -/
def readLiteral (limit : Nat) (cs : List Char) : Option (Literal × List Char) :=
  (quoted limit cs).or ((floatLiteral cs).or (intLiteral cs))

/-- Whether a punctuation character stands in front; the slash of a comment is none. -/
def punctAhead (cs : List Char) : Bool :=
  match cs with
  | c :: _ => "~!@#$%^&*-=+|;:,<.>/?'".toList.contains c && !begins "//" cs && !begins "/*" cs
  | [] => false

/-- Prefixes of literals, which are not identifiers when the literal itself is malformed. -/
def literalPrefixes : List String :=
  ["r\"", "r#\"", "r##", "b\"", "b'", "br\"", "br#", "c\"", "cr\"", "cr#"]

/-- Whether a literal that turned out malformed is in front. -/
def malformedLiteral (cs : List Char) : Bool :=
  literalPrefixes.any fun lead => begins lead cs

/-- Read what follows the quote of a lifetime. The quote stands alone before a literal. -/
def lifetimeToken (limit : Nat) (cs : List Char) : Option (Tree × List Char) := do
  let (name, rest) ← anyIdent cs
  let refused :=
    match rest with
    | '\'' :: _ => true
    | '#' :: _ => !begins "r#" cs
    | _ => false
  if refused then none
  else if (readLiteral limit cs).isSome then some (.punct '\'' true, cs)
  else if malformedLiteral cs then none
  else some (.lifetime (String.ofList name), rest)

/-- Read one token that is no delimiter. -/
def leafToken (limit : Nat) (cs : List Char) : Option (Tree × List Char) :=
  match readLiteral limit cs with
  | some (value, rest) => some (.literal value, rest)
  | none =>
    match cs with
    | [] => none
    | '\'' :: rest => lifetimeToken limit rest
    | c :: rest =>
      if punctAhead cs then some (.punct c (punctAhead rest), rest)
      else if malformedLiteral cs then none
      else (anyIdent cs).map fun (name, rest) => (.ident (String.ofList name), rest)

/-- A comment in parentheses that stands for a literal that could not be written. -/
def errorMark : String := "(/*ERROR*/)"

/-- Read tokens to the end of the text, which has fewer than `fuel` characters. -/
def flatTokens : Nat → List Char → Option (List FlatToken)
  | 0, _ => none
  | fuel + 1, cs =>
    let cs := skipGaps (fuel + 1) cs
    match docComment cs with
    | some (tokens, rest) => (flatTokens fuel rest).map (tokens ++ ·)
    | none =>
      match cs with
      | [] => some []
      | '(' :: rest =>
        match Text.stripLead errorMark.toList cs with
        | some rest => (flatTokens fuel rest).map (.leaf (.literal .other) :: ·)
        | none => (flatTokens fuel rest).map (.opening .paren :: ·)
      | '[' :: rest => (flatTokens fuel rest).map (.opening .bracket :: ·)
      | '\x7b' :: rest => (flatTokens fuel rest).map (.opening .brace :: ·)
      | ')' :: rest => (flatTokens fuel rest).map (.closing .paren :: ·)
      | ']' :: rest => (flatTokens fuel rest).map (.closing .bracket :: ·)
      | '\x7d' :: rest => (flatTokens fuel rest).map (.closing .brace :: ·)
      | cs => do
        let (tree, rest) ← leafToken (fuel + 1) cs
        let tokens ← flatTokens fuel rest
        return .leaf tree :: tokens

/-- Drop a leading byte order mark. -/
def dropMark (cs : List Char) : List Char :=
  match cs with
  | c :: rest => if c.toNat == 0xFEFF then rest else cs
  | [] => []

/-- The token trees of a text. -/
def Tree.ofText? (cs : List Char) : Option (List Tree) := do
  let cs := dropMark cs
  let tokens ← flatTokens (cs.length + 1) cs
  Tree.ofFlat? tokens

/-- Drop a byte order mark and an interpreter line, which an attribute is not. -/
def dropInterpreter (cs : List Char) : List Char :=
  let cs := dropMark cs
  if begins "#!" cs then
    match skipGaps (cs.length + 1) (cs.drop 2) with
    | '[' :: _ => cs
    | _ => cs.dropWhile (· != '\n')
  else cs

end ApiScribe.Source
