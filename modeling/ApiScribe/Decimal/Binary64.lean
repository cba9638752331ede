/-!
# Finite binary64 numbers

A finite binary64 number is `± significand · 2 ^ exponent` with a significand below
`2 ^ 53` and an exponent of at least `-1074`. Everything here is exact arithmetic on
natural numbers: a quotient is rounded to the nearest representable number, a tie going to
the even significand, and a result beyond the largest finite number is refused.
-/

namespace ApiScribe

/-- A finite binary64 number, zero of either sign included. -/
structure Binary64 where
  negative : Bool
  significand : Nat
  exponent : Int
deriving DecidableEq, Repr, Inhabited

namespace Binary64

/-- The least exponent, that of the subnormal numbers. -/
def minExponent : Int := -1074

/-- The exponent of the largest finite number. -/
def maxExponent : Int := 971

/-- Zero of the given sign. -/
def zero (negative : Bool) : Binary64 := ⟨negative, 0, minExponent⟩

/-- Whether the number is a zero of either sign. -/
def isZero (x : Binary64) : Bool := x.significand == 0

/-- The number with its sign turned. -/
def neg (x : Binary64) : Binary64 := { x with negative := !x.negative }

/-- The integer nearest to `num / den`, a tie going to the even one. -/
def roundQuotient (num den : Nat) : Nat :=
  let q := num / den
  let twice := 2 * (num % den)
  if twice < den then q
  else if den < twice then q + 1
  else q + q % 2

/-- The fraction `num · 2 ^ e / den` as a numerator and a denominator. -/
def scale (num den : Nat) (e : Int) : Nat × Nat :=
  if 0 ≤ e then (num * Nat.pow 2 e.toNat, den) else (num, den * Nat.pow 2 (-e).toNat)

/-- The largest `e` with `2 ^ e ≤ num / den`, for a positive fraction. -/
def floorLog2 (num den : Nat) : Int :=
  let guess : Int := (num.log2 : Int) - den.log2
  let (n, d) := scale num den (-guess)
  if n < d then guess - 1 else guess

/-- The number nearest to `± num / den`, or `none` beyond the finite range. -/
def ofRatio (negative : Bool) (num den : Nat) : Option Binary64 :=
  if num = 0 then some (zero negative)
  else
    let e := max (floorLog2 num den - 52) minExponent
    let (n, d) := scale num den (-e)
    let m := roundQuotient n d
    let (m, e) := if m = Nat.pow 2 53 then (Nat.pow 2 52, e + 1) else (m, e)
    if maxExponent < e then none else some ⟨negative, m, e⟩

/-- The number nearest to `± digits · 10 ^ power`, or `none` beyond the finite range. -/
def ofDecimal (negative : Bool) (digits : Nat) (power : Int) : Option Binary64 :=
  if 0 ≤ power then ofRatio negative (digits * Nat.pow 10 power.toNat) 1
  else ofRatio negative digits (Nat.pow 10 (-power).toNat)

/-- The magnitude as a fraction. -/
def toRatio (x : Binary64) : Nat × Nat :=
  scale x.significand 1 x.exponent

/-- The product, rounded to nearest. -/
def mul? (x y : Binary64) : Option Binary64 :=
  let (a, b) := x.toRatio
  let (c, d) := y.toRatio
  ofRatio (x.negative != y.negative) (a * c) (b * d)

/-- The quotient by a number that is not zero, rounded to nearest. -/
def div? (x y : Binary64) : Option Binary64 :=
  let (a, b) := x.toRatio
  let (c, d) := y.toRatio
  ofRatio (x.negative != y.negative) (a * d) (b * c)

end Binary64

end ApiScribe
