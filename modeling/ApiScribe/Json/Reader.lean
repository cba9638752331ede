import ApiScribe.Json.Value
import ApiScribe.Text.Basic

/-!
# Reading JSON text

Text is first read into a `Tree`, which keeps repeated members and marks what only a
consumer of the value may refuse: a number beyond the finite range and a string with an
unpaired surrogate. A tree then becomes a `Value` when it holds no such mark and is nested at
most 127 deep; a repeated key keeps its first place and takes its last value.
-/

namespace ApiScribe.Json

/-- A number as it was read. -/
inductive Number where
  | int (n : Int)
  | float (x : Binary64)
deriving DecidableEq, Repr

/-- JSON text as it was written. `none` marks a number out of range or an ill-formed string. -/
inductive Tree where
  | null
  | bool (b : Bool)
  | num (n : Option Number)
  | str (s : Option String)
  | arr (items : List Tree)
  | obj (members : List (Option String × Tree))
deriving Repr, Inhabited

/-- How deep arrays and objects may nest. -/
def maxDepth : Nat := 127

/-- The largest unsigned integer that is kept exact. -/
def maxExact : Nat := Nat.pow 2 64 - 1

/-- Read digits while the exact significand has room; count those that were read. -/
def takeSignificand (significand : Nat) : Nat → List Char → Nat × Nat × List Char
  | count, [] => (significand, count, [])
  | count, c :: cs =>
    if c.isDigit then
      let next := significand * 10 + (c.toNat - '0'.toNat)
      if maxExact < next then (significand, count, c :: cs) else takeSignificand next (count + 1) cs
    else (significand, count, c :: cs)

/-- Scale a significand by a power of ten with one rounding for each factor of at most `10 ^ 308`. -/
def scaleByTen (x : Binary64) : Nat → Int → Option Binary64
  | 0, _ => some x
  | fuel + 1, power =>
    if power.natAbs ≤ 308 then
      match Binary64.ofDecimal false (Nat.pow 10 power.natAbs) 0 with
      | none => none
      | some factor => if 0 ≤ power then x.mul? factor else x.div? factor
    else if x.isZero then some x
    else if 0 ≤ power then none
    else
      match Binary64.ofDecimal false (Nat.pow 10 308) 0 with
      | none => none
      | some factor => (x.div? factor).bind fun y => scaleByTen y fuel (power + 308)

/-- The number with this significand and decimal exponent. -/
def floatOf (negative : Bool) (significand : Nat) (power : Int) : Option Number := do
  let start ← Binary64.ofRatio false significand 1
  let x ← scaleByTen start 8 power
  return .float (if negative then x.neg else x)

/-- The largest exponent that is counted; a longer one is beyond the range in its direction. -/
def maxPower : Int := 2147483647

/-- Read an exponent after its mark. The outer `none` is a fault of syntax. -/
def readExponent (negative : Bool) (significand : Nat) (power : Int) (cs : List Char) :
    Option (Option Number × List Char) :=
  let (down, cs) :=
    match cs with
    | '+' :: cs => (false, cs)
    | '-' :: cs => (true, cs)
    | cs => (false, cs)
  let digits := cs.takeWhile Char.isDigit
  let rest := cs.dropWhile Char.isDigit
  match Text.natOfDigits? 10 digits with
  | none => none
  | some size =>
    if maxPower < size then
      if significand != 0 && !down then some (none, rest)
      else some (some (.float (Binary64.zero negative)), rest)
    else
      let total := if down then power - size else power + size
      some (floatOf negative significand (max (-maxPower - 1) (min maxPower total)), rest)

/-- Finish a number that has a fraction or an exponent. -/
def readTail (negative : Bool) (significand : Nat) (power : Int) (cs : List Char) :
    Option (Option Number × List Char) :=
  match cs with
  | 'e' :: cs => readExponent negative significand power cs
  | 'E' :: cs => readExponent negative significand power cs
  | cs => some (floatOf negative significand power, cs)

/-- Read the digits after the decimal point. Digits beyond the exact significand are dropped. -/
def readFraction (negative : Bool) (significand : Nat) (power : Int) (cs : List Char) :
    Option (Option Number × List Char) :=
  if (cs.takeWhile Char.isDigit).isEmpty then none
  else
    let (significand, count, rest) := takeSignificand significand 0 cs
    readTail negative significand (power - count) (rest.dropWhile Char.isDigit)

/-- Read a number after its sign. Integers that fit 64 bits stay exact; negative zero is a float. -/
def readNumber (negative : Bool) (cs : List Char) : Option (Option Number × List Char) :=
  let digits := cs.takeWhile Char.isDigit
  let rest := cs.dropWhile Char.isDigit
  match digits with
  | [] => none
  | '0' :: _ :: _ => none
  | _ =>
    let (significand, _, beyond) := takeSignificand 0 0 digits
    let power : Int := beyond.length
    match rest with
    | '.' :: cs => readFraction negative significand power cs
    | 'e' :: cs => readExponent negative significand power cs
    | 'E' :: cs => readExponent negative significand power cs
    | cs =>
      if power = 0 then
        if !negative then some (some (.int significand), cs)
        else if significand = 0 || Nat.pow 2 63 < significand then some (floatOf true significand 0, cs)
        else some (some (.int (-significand)), cs)
      else some (floatOf negative significand power, cs)

/-- Read four hexadecimal digits. -/
def readHex4 : List Char → Option (Nat × List Char)
  | a :: b :: c :: d :: rest => (Text.natOfDigits? 16 [a, b, c, d]).map fun n => (n, rest)
  | _ => none

/-- Add a character in front of the rest of a string. -/
def pushChar (c : Char) (tail : Option (List Char)) : Option (List Char) :=
  tail.map (c :: ·)

/-- Read a string after its opening quote. An unpaired surrogate leaves `none` for its text. -/
def readString : Nat → List Char → Option (Option (List Char) × List Char)
  | 0, _ => none
  | _ + 1, [] => none
  | _ + 1, '"' :: cs => some (some [], cs)
  | fuel + 1, '\\' :: 'u' :: cs => do
    let (n, cs) ← readHex4 cs
    if 0xD800 ≤ n && n < 0xDC00 then
      match cs with
      | '\\' :: 'u' :: low =>
        let (m, after) ← readHex4 low
        if 0xDC00 ≤ m && m < 0xE000 then
          let (tail, rest) ← readString fuel after
          return (pushChar (Char.ofNat (0x10000 + (n - 0xD800) * 0x400 + (m - 0xDC00))) tail, rest)
        else
          let (_, rest) ← readString fuel cs
          return (none, rest)
      | _ =>
        let (_, rest) ← readString fuel cs
        return (none, rest)
    else if 0xDC00 ≤ n && n < 0xE000 then
      let (_, rest) ← readString fuel cs
      return (none, rest)
    else
      let (tail, rest) ← readString fuel cs
      return (pushChar (Char.ofNat n) tail, rest)
  | fuel + 1, '\\' :: c :: cs => do
    let plain ←
      match c with
      | '"' => some '"'
      | '\\' => some '\\'
      | '/' => some '/'
      | 'b' => some '\x08'
      | 'f' => some '\x0c'
      | 'n' => some '\n'
      | 'r' => some '\r'
      | 't' => some '\t'
      | _ => none
    let (tail, rest) ← readString fuel cs
    return (pushChar plain tail, rest)
  | fuel + 1, c :: cs => do
    if c.toNat < 0x20 || c == '\\' then none
    else
      let (tail, rest) ← readString fuel cs
      return (pushChar c tail, rest)

/-- The white space of JSON text. -/
def isSpace (c : Char) : Bool :=
  c == ' ' || c == '\n' || c == '\t' || c == '\r'

/-- Drop leading white space. -/
def skipSpace (cs : List Char) : List Char :=
  cs.dropWhile isSpace

mutual

/-- Read one value from the front of the text. -/
def readTree : Nat → List Char → Option (Tree × List Char)
  | 0, _ => none
  | fuel + 1, cs =>
    match skipSpace cs with
    | 'n' :: 'u' :: 'l' :: 'l' :: rest => some (.null, rest)
    | 't' :: 'r' :: 'u' :: 'e' :: rest => some (.bool true, rest)
    | 'f' :: 'a' :: 'l' :: 's' :: 'e' :: rest => some (.bool false, rest)
    | '"' :: rest => (readString (rest.length + 1) rest).map fun (s, rest) => (.str (s.map String.ofList), rest)
    | '[' :: rest =>
      match skipSpace rest with
      | ']' :: rest => some (.arr [], rest)
      | rest => (readItems fuel rest).map fun (items, rest) => (.arr items, rest)
    | '{' :: rest =>
      match skipSpace rest with
      | '}' :: rest => some (.obj [], rest)
      | rest => (readMembers fuel rest).map fun (members, rest) => (.obj members, rest)
    | '-' :: rest => (readNumber true rest).map fun (n, rest) => (.num n, rest)
    | rest => (readNumber false rest).map fun (n, rest) => (.num n, rest)

/-- Read the items of an array up to its closing bracket. -/
def readItems : Nat → List Char → Option (List Tree × List Char)
  | 0, _ => none
  | fuel + 1, cs => do
    let (item, rest) ← readTree fuel cs
    match skipSpace rest with
    | ']' :: rest => return ([item], rest)
    | ',' :: rest =>
      let (items, rest) ← readItems fuel rest
      return (item :: items, rest)
    | _ => none

/-- Read the members of an object up to its closing brace. -/
def readMembers : Nat → List Char → Option (List (Option String × Tree) × List Char)
  | 0, _ => none
  | fuel + 1, cs => do
    match skipSpace cs with
    | '"' :: rest =>
      let (key, rest) ← readString (rest.length + 1) rest
      match skipSpace rest with
      | ':' :: rest =>
        let (item, rest) ← readTree fuel rest
        let member := (key.map String.ofList, item)
        match skipSpace rest with
        | '}' :: rest => return ([member], rest)
        | ',' :: rest =>
          let (members, rest) ← readMembers fuel rest
          return (member :: members, rest)
        | _ => none
      | _ => none
    | _ => none

end

/-- Read a whole text as one tree. -/
def Tree.ofText? (text : String) : Option Tree :=
  let cs := text.toList
  match readTree (2 * cs.length + 2) cs with
  | some (tree, rest) => if (skipSpace rest).isEmpty then some tree else none
  | none => none

mutual

/-- The value of a tree whose containers nest at most `depth` deep. -/
def Tree.toValueWithin? : Nat → Tree → Option Value
  | _, .null => some .null
  | _, .bool b => some (.bool b)
  | _, .num (some (.int n)) => some (.int n)
  | _, .num (some (.float x)) => some (.float x)
  | _, .num none => none
  | _, .str (some s) => some (.str s)
  | _, .str none => none
  | 0, .arr _ => none
  | depth + 1, .arr items => (Tree.itemsToValues? depth items).map .arr
  | 0, .obj _ => none
  | depth + 1, .obj members => (Tree.membersToValues? depth members).map fun ms => .obj (insertAll ms)

/-- The values of the items of an array. -/
def Tree.itemsToValues? : Nat → List Tree → Option (List Value)
  | _, [] => some []
  | depth, item :: rest => do
    let value ← Tree.toValueWithin? depth item
    let values ← Tree.itemsToValues? depth rest
    return value :: values

/-- The values of the members of an object, repetitions included. -/
def Tree.membersToValues? : Nat → List (Option String × Tree) → Option (List (String × Value))
  | _, [] => some []
  | depth, (key, item) :: rest => do
    let key ← key
    let value ← Tree.toValueWithin? depth item
    let values ← Tree.membersToValues? depth rest
    return (key, value) :: values

end

/-- Read a whole text as one value. -/
def Value.ofText? (text : String) : Option Value :=
  (Tree.ofText? text).bind (Tree.toValueWithin? maxDepth)

end ApiScribe.Json
