/-!
# Cutting text

Text is a `String`; the rules that cut it are stated on lists of characters. Blank
characters are those with the Unicode `White_Space` property, which is wider than the
ASCII class of the core library.

Main statements: splitting always leaves a piece (`pieces_ne_nil`) and no word is empty
(`ne_nil_of_mem_wordsOf`).
-/

namespace ApiScribe.Text

/-- The characters with the Unicode `White_Space` property. -/
def isBlank (c : Char) : Bool :=
  let n := c.toNat
  (9 ≤ n && n ≤ 13) || n == 0x20 || n == 0x85 || n == 0xA0 || n == 0x1680 ||
    (0x2000 ≤ n && n ≤ 0x200A) || n == 0x2028 || n == 0x2029 || n == 0x202F ||
    n == 0x205F || n == 0x3000

/-- Drop the trailing items that satisfy `p`. -/
def stripEnd {α : Type} (p : α → Bool) (items : List α) : List α :=
  (items.reverse.dropWhile p).reverse

/-- Drop the items that satisfy `p` from both ends. -/
def strip {α : Type} (p : α → Bool) (items : List α) : List α :=
  stripEnd p (items.dropWhile p)

/-- The text without blanks at either end. -/
def trim (s : String) : String :=
  String.ofList (strip isBlank s.toList)

/-- The text without leading characters that satisfy `p`. -/
def trimStartOf (p : Char → Bool) (s : String) : String :=
  String.ofList (s.toList.dropWhile p)

/-- The text without trailing characters that satisfy `p`. -/
def trimEndOf (p : Char → Bool) (s : String) : String :=
  String.ofList (stripEnd p s.toList)

/-- The text without characters that satisfy `p` at either end. -/
def trimOf (p : Char → Bool) (s : String) : String :=
  String.ofList (strip p s.toList)

/-- The pieces between the characters that satisfy `p`; always at least one piece. -/
def pieces (p : Char → Bool) : List Char → List (List Char)
  | [] => [[]]
  | c :: cs =>
    match p c, pieces p cs with
    | true, rest => [] :: rest
    | false, [] => [[c]]
    | false, piece :: rest => (c :: piece) :: rest

/-- The maximal runs of non-blank characters. -/
def wordsOf (cs : List Char) : List (List Char) :=
  (pieces isBlank cs).filter fun piece => !piece.isEmpty

/-- The blank-separated words of a text. -/
def words (s : String) : List String :=
  (wordsOf s.toList).map String.ofList

/-- The pieces of a text between occurrences of the separator. -/
def splitOnChar (separator : Char) (s : String) : List String :=
  (pieces (· == separator) s.toList).map String.ofList

/-- Cut around the first character that satisfies `p`, which belongs to neither part. -/
def cutAt (p : Char → Bool) : List Char → Option (List Char × List Char)
  | [] => none
  | c :: cs => if p c then some ([], cs) else (cutAt p cs).map fun parts => (c :: parts.1, parts.2)

/-- Remove `lead` from the front of `cs`, if it stands there. -/
def stripLead : (lead cs : List Char) → Option (List Char)
  | [], cs => some cs
  | _ :: _, [] => none
  | l :: lead, c :: cs => if l = c then stripLead lead cs else none

/-- Cut around the first occurrence of the pattern, which belongs to neither part. -/
def cutAround (pattern : List Char) : List Char → Option (List Char × List Char)
  | [] => if pattern.isEmpty then some ([], []) else none
  | c :: cs =>
    match stripLead pattern (c :: cs) with
    | some rest => some ([], rest)
    | none => (cutAround pattern cs).map fun parts => (c :: parts.1, parts.2)

/-- Cut a text around its first blank. -/
def splitAtBlank (s : String) : Option (String × String) :=
  (cutAt isBlank s.toList).map fun parts => (String.ofList parts.1, String.ofList parts.2)

/-- Cut a text around the first occurrence of a pattern. -/
def splitAround (pattern s : String) : Option (String × String) :=
  (cutAround pattern.toList s.toList).map fun parts => (String.ofList parts.1, String.ofList parts.2)

/-- Remove a leading text, if it stands there. -/
def dropLead (lead s : String) : Option String :=
  (stripLead lead.toList s.toList).map String.ofList

/-- Remove a final text, if it stands there. -/
def dropFinal (final s : String) : Option String :=
  (stripLead final.toList.reverse s.toList.reverse).map fun cs => String.ofList cs.reverse

/-- Whether `s` begins with `lead`. -/
def startsWith (lead s : String) : Bool :=
  (stripLead lead.toList s.toList).isSome

/-- Whether `needle` occurs in `s`. -/
def contains (needle s : String) : Bool :=
  (cutAround needle.toList s.toList).isSome

/-- Lower-case the ASCII letters and keep every other character. -/
def lowerAscii (s : String) : String :=
  String.ofList (s.toList.map Char.toLower)

/-- Upper-case the ASCII letters and keep every other character. -/
def upperAscii (s : String) : String :=
  String.ofList (s.toList.map Char.toUpper)

/-- Replace one character by a text, everywhere. -/
def replaceChar (c : Char) (text s : String) : String :=
  String.ofList (s.toList.flatMap fun d => if d = c then text.toList else [d])

/-- The texts with the separator between each two. -/
def join (separator : String) : List String → String
  | [] => ""
  | [s] => s
  | s :: rest => s ++ separator ++ join separator rest

/-- The decimal digits of a natural number. -/
def decimal (n : Nat) : String :=
  String.ofList (Nat.toDigits 10 n)

/-- The value of an ASCII digit in the given base of at most sixteen, in either case. -/
def digitValue? (base : Nat) (c : Char) : Option Nat :=
  let n :=
    if c.isDigit then c.toNat - '0'.toNat
    else if 'a' ≤ c && c ≤ 'f' then c.toNat - 'a'.toNat + 10
    else if 'A' ≤ c && c ≤ 'F' then c.toNat - 'A'.toNat + 10
    else 16
  if n < base then some n else none

/-- Read a non-empty run of digits in the given base. -/
def natOfDigits? (base : Nat) : List Char → Option Nat
  | [] => none
  | cs => cs.foldl (fun total c => do return (← total) * base + (← digitValue? base c)) (some 0)

/-- There is always a piece. -/
theorem pieces_ne_nil (p : Char → Bool) (cs : List Char) : pieces p cs ≠ [] := by
  induction cs with
  | nil => simp [pieces]
  | cons c cs ih =>
    rw [pieces]
    cases p c <;> cases h : pieces p cs <;> simp_all

/-- No word is empty. -/
theorem ne_nil_of_mem_wordsOf {cs w : List Char} (h : w ∈ wordsOf cs) : w ≠ [] := by
  have := (List.mem_filter.1 h).2
  intro hw
  simp [hw] at this

end ApiScribe.Text
