import ItemSql.Decimal.Integer
import ItemSql.Decimal.Shortest

/-!
# Layouts of a decimal

A layout says how the digits of a decimal are set out: for which exponents the digits are placed
around the point, what follows a whole number, and where a tie between two shortest decimals goes.
The digits themselves come from `shortest`.
-/

namespace ItemSql.Decimal

/-- The decisions a format makes about the text of a double. -/
structure Layout where
  /-- Whether the digits are placed around the point, by the exponent of the first digit. -/
  positional : Int → Bool
  /-- What follows the digits of a whole number. -/
  afterWhole : String
  /-- Whether the lower of two equally near decimals is taken, by its digits. -/
  tieLow : Nat → Bool

/-- The digits of `x` around the point, with zeros where the point lies beyond them. -/
def Scaled.positional (x : Scaled) (afterWhole : String) : String :=
  let ds := digits x.significand
  if 0 ≤ x.exponent then
    String.ofList (ds ++ List.replicate x.exponent.toNat '0') ++ afterWhole
  else
    let places := (-x.exponent).toNat
    let padded := List.replicate (places + 1 - ds.length) '0' ++ ds
    let whole := padded.length - places
    String.ofList (padded.take whole ++ '.' :: padded.drop whole)

/-- The exponent of the first digit of `x`. -/
def Scaled.leading (x : Scaled) : Int :=
  x.exponent + (digits x.significand).length - 1

/-- One digit of `x`, its other digits behind the point, and the exponent of the first one. -/
def Scaled.exponential (x : Scaled) : String :=
  let mantissa :=
    match digits x.significand with
    | [] => []
    | [d] => [d]
    | d :: ds => d :: '.' :: ds
  let mark := if x.leading < 0 then ['e'] else ['e', '+']
  String.ofList (mantissa ++ mark ++ intChars x.leading)

/-- The text of the finite double of the given bits. -/
def Layout.write (layout : Layout) (bits : UInt64) : String :=
  let x := shortest layout.tieLow bits
  let body :=
    if layout.positional x.leading then x.positional layout.afterWhole else x.exponential
  if isNegative bits then "-" ++ body else body

/-- Digits around the point whatever the exponent, nothing after a whole number, ties upward. -/
def Layout.plain : Layout where
  positional _ := true
  afterWhole := ""
  tieLow _ := false

/-- Digits around the point from `1e-5` up to `1e16`, an exponent beyond; a whole number shows that
it is no integer; a tie goes to the even digit. -/
def Layout.scientific : Layout where
  positional e := -5 ≤ e && e < 16
  afterWhole := ".0"
  tieLow n := n % 2 = 0

end ItemSql.Decimal
