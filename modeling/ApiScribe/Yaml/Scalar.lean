import ApiScribe.Decimal.Reader

/-!
# Plain scalars

What a plain scalar stands for: nothing, a truth value, a number or a text. Both the reader and the
printer go by it, so that a text is written plainly only if it is read back as text.
-/

namespace ApiScribe.Yaml

/-- What a plain scalar stands for. -/
inductive Resolved where
  | null
  | bool (value : Bool)
  | int (value : Int)
  | float (value : Binary64)
  /-- An infinite or undefined number. -/
  | notFinite
  | text
deriving DecidableEq, Repr

/-- A number with a superfluous leading zero is a text. -/
def hasSpareZero (text : String) : Bool :=
  match (Decimal.splitSign text.toList).2 with
  | '0' :: c :: cs => (c :: cs).all Char.isDigit
  | _ => false

/-- Read the digits of a number in a base after its sign. -/
def radixInt? (text : String) (negative : Bool) (cs : List Char) : Option Int :=
  let signed (n : Nat) : Int := if negative then -(n : Int) else n
  match cs with
  | '0' :: 'x' :: digits => (Text.natOfDigits? 16 digits).map signed
  | '0' :: 'o' :: digits => (Text.natOfDigits? 8 digits).map signed
  | '0' :: 'b' :: digits => (Text.natOfDigits? 2 digits).map signed
  | digits => if hasSpareZero text then none else (Text.natOfDigits? 10 digits).map signed

/-- Read an integer of at most 128 bits: decimal, or in base sixteen, eight or two. -/
def int? (text : String) : Option Int :=
  let (negative, cs) := Decimal.splitSign text.toList
  (radixInt? text negative cs).filter fun n => Decimal.fitsSigned 128 n || Decimal.fitsUnsigned 128 n

/-- The texts of numbers that are not finite. -/
def notFiniteTexts : List String :=
  [".inf", ".Inf", ".INF", "+.inf", "+.Inf", "+.INF", "-.inf", "-.Inf", "-.INF", ".nan", ".NaN", ".NAN"]

/-- What a plain scalar stands for. -/
def resolve (text : String) : Resolved :=
  if ["", "null", "Null", "NULL", "~"].contains text then .null
  else if ["true", "True", "TRUE"].contains text then .bool true
  else if ["false", "False", "FALSE"].contains text then .bool false
  else
    match int? text with
    | some n => .int n
    | none =>
      if hasSpareZero text then .text
      else if notFiniteTexts.contains text then .notFinite
      else
        match Decimal.floatOfText? text with
        | some x => .float x
        | none => .text

end ApiScribe.Yaml
