import ApiScribe.Decimal.Binary64
import ApiScribe.Text.Basic

/-!
# Reading decimal numbers

A number is a sign, digits with at most one point among them, and an exponent; of the digits there
must be one at least. The value is rounded once, to nearest.
-/

namespace ApiScribe.Decimal

/-- Split a sign off; `true` is a minus. -/
def splitSign : List Char → Bool × List Char
  | '+' :: cs => (false, cs)
  | '-' :: cs => (true, cs)
  | cs => (false, cs)

/-- Read a whole number with an optional sign. -/
def intOfText? (text : String) : Option Int :=
  let (negative, digits) := splitSign text.toList
  (Text.natOfDigits? 10 digits).map fun n => if negative then -(n : Int) else n

/-- Whether an integer fits a number of bits, one of which is its sign. -/
def fitsSigned (bits : Nat) (n : Int) : Bool :=
  let bound : Nat := Nat.pow 2 (bits - 1)
  decide (-(bound : Int) ≤ n) && decide (n < (bound : Int))

/-- Whether an integer is not negative and fits a number of bits. -/
def fitsUnsigned (bits : Nat) (n : Int) : Bool :=
  let bound : Nat := Nat.pow 2 bits
  decide (0 ≤ n) && decide (n < (bound : Int))

/-- Read a whole number that fits 64 bits with sign. -/
def int64OfText? (text : String) : Option Int := (intOfText? text).filter (fitsSigned 64)

/-- Read the exponent that follows the digits: nothing, or a mark, a sign and digits. -/
def exponent? : List Char → Option Int
  | [] => some 0
  | mark :: cs =>
    if mark = 'e' || mark = 'E' then
      let (negative, digits) := splitSign cs
      (Text.natOfDigits? 10 digits).map fun n => if negative then -(n : Int) else n
    else none

/-- The number nearest to `± digits · 10 ^ power`; `none` when it is too large. Powers that are far
out of range are decided without computing them. -/
def nearest? (negative : Bool) (digits : Nat) (power : Int) : Option Binary64 :=
  let size : Int := (Nat.toDigits 10 digits).length
  if digits = 0 || size + power < -400 then some (Binary64.zero negative)
  else if 400 < size + power then none
  else Binary64.ofDecimal negative digits power

/-- Read a decimal number; `none` when it is malformed or too large. -/
def floatOfText? (text : String) : Option Binary64 :=
  let (negative, cs) := splitSign text.toList
  let whole := cs.takeWhile Char.isDigit
  let rest := cs.dropWhile Char.isDigit
  let (fraction, rest) :=
    match rest with
    | '.' :: cs => (cs.takeWhile Char.isDigit, cs.dropWhile Char.isDigit)
    | cs => ([], cs)
  match Text.natOfDigits? 10 (whole ++ fraction), exponent? rest with
  | some digits, some power => nearest? negative digits (power - fraction.length)
  | _, _ => none

end ApiScribe.Decimal
