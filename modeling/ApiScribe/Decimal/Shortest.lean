import ApiScribe.Decimal.Binary64
import ApiScribe.Text.Basic

/-!
# The fewest digits that read back

A positive binary64 number is written with the fewest decimal digits that still read back as
the same number: for one digit, two digits and so on, the two neighbours of the number on
that decimal grid are tried, and the first grid with a neighbour inside the rounding
interval wins. Of two neighbours inside, the nearer is taken, and the even one on a tie.

A `NumberLayout` then says where the decimal point stands and when an exponent is written.
-/

namespace ApiScribe.Decimal

/-- The decimal number `digits · 10 ^ power`. -/
structure Digits where
  digits : Nat
  power : Int
deriving DecidableEq, Repr

/-- Compare `a · 10 ^ p` with `num / den`. -/
def compareScaled (a : Nat) (p : Int) (num den : Nat) : Ordering :=
  if 0 ≤ p then compare (a * Nat.pow 10 p.toNat * den) num
  else compare (a * den) (num * Nat.pow 10 (-p).toNat)

/-- Whether `a · 10 ^ p` reads back as the given number.

The interval reaches half-way to each neighbour. Below a power of two the lower neighbour is
at half the distance. The ends belong to the interval exactly when the significand is
even. -/
def readsBack (x : Binary64) (a : Nat) (p : Int) : Bool :=
  let m := x.significand
  let e := x.exponent - 2
  let low := if m = Nat.pow 2 52 && Binary64.minExponent < x.exponent then 4 * m - 1 else 4 * m - 2
  let (lowNum, lowDen) := Binary64.scale low 1 e
  let (highNum, highDen) := Binary64.scale (4 * m + 2) 1 e
  let below := compareScaled a p lowNum lowDen
  let above := compareScaled a p highNum highDen
  (below == .gt && above == .lt) || (m % 2 == 0 && (below == .eq || above == .eq))

/-- The grid point `a · 10 ^ p` just below a fraction. -/
def floorOn (num den : Nat) (p : Int) : Nat :=
  if 0 ≤ p then num / (den * Nat.pow 10 p.toNat) else num * Nat.pow 10 (-p).toNat / den

/-- The better of the two neighbours of the number on the grid of `10 ^ p`, if one reads back. -/
def neighbour? (x : Binary64) (p : Int) : Option Nat :=
  let (num, den) := x.toRatio
  let low := floorOn num den p
  let lowIn := low != 0 && readsBack x low p
  let highIn := readsBack x (low + 1) p
  match lowIn, highIn with
  | false, false => none
  | true, false => some low
  | false, true => some (low + 1)
  | true, true =>
    match compareScaled (2 * low + 1) p (2 * num) den with
    | .gt => some low
    | .lt => some (low + 1)
    | .eq => some (low + low % 2)

/-- The largest power of ten that is at most the fraction, searched upwards from `p`. -/
def magnitude (num den : Nat) : Nat → Int → Int
  | 0, p => p
  | fuel + 1, p => if compareScaled 1 (p + 1) num den == .gt then p else magnitude num den fuel (p + 1)

/-- Remove factors of ten from the digits. -/
def dropZeros : Nat → Digits → Digits
  | 0, d => d
  | fuel + 1, d => if d.digits % 10 = 0 then dropZeros fuel ⟨d.digits / 10, d.power + 1⟩ else d

/-- Try the grids of one digit, two digits and so on. -/
def searchGrids (x : Binary64) : Nat → Int → Digits
  | 0, p => ⟨floorOn x.toRatio.1 x.toRatio.2 p, p⟩
  | fuel + 1, p =>
    match neighbour? x p with
    | some a => ⟨a, p⟩
    | none => searchGrids x fuel (p - 1)

/-- The shortest digits of a number that is not zero; the sign is left out. -/
def shortest (x : Binary64) : Digits :=
  let (num, den) := x.toRatio
  let top := magnitude num den 700 (-330)
  dropZeros 20 (searchGrids x 17 top)

/-- Where the decimal point stands and how an exponent is written. -/
structure NumberLayout where
  /-- The least decimal exponent that is written without an exponent. -/
  leastPlain : Int
  /-- The greatest decimal exponent that is written without an exponent. -/
  greatestPlain : Int
  /-- Whether a positive exponent shows its sign. -/
  plusSign : Bool

/-- Lay out a positive number from its digits. -/
def NumberLayout.place (layout : NumberLayout) (d : Digits) : String :=
  let ds := Nat.toDigits 10 d.digits
  let exponent : Int := d.power + (ds.length : Int) - 1
  let text (cs : List Char) : String := String.ofList cs
  if layout.leastPlain ≤ exponent && exponent ≤ layout.greatestPlain then
    if exponent < 0 then
      "0." ++ text (List.replicate ((-exponent).toNat - 1) '0') ++ text ds
    else
      let whole := exponent.toNat + 1
      if ds.length ≤ whole then text ds ++ text (List.replicate (whole - ds.length) '0') ++ ".0"
      else text (ds.take whole) ++ "." ++ text (ds.drop whole)
  else
    let mantissa :=
      match ds with
      | [] => ""
      | [c] => text [c]
      | c :: rest => text [c] ++ "." ++ text rest
    let sign := if exponent < 0 then "-" else if layout.plusSign then "+" else ""
    mantissa ++ "e" ++ sign ++ Text.decimal exponent.natAbs

/-- The text of a number, with a sign for negative numbers and negative zero. -/
def NumberLayout.render (layout : NumberLayout) (x : Binary64) : String :=
  let sign := if x.negative then "-" else ""
  if x.isZero then sign ++ "0.0" else sign ++ layout.place (shortest x)

end ApiScribe.Decimal
