import ItemSql.Decimal.Integer

/-!
# JSON numbers

A number is an optional minus sign, digits, an optional fraction and an optional exponent. A number
of digits alone is an integer if it fits in 64 bits, signed or unsigned; everything else is a
double, and so is the negative zero.

A double is found from its *significand*: the leading digits that fit in 64 bits without a sign.
The digits of the integer part that do not fit count by their number only; those of the fraction
that do not fit do not count. The significand, as a double, is then multiplied or divided by a power
of ten. So the double is rounded more than once, and need not be the nearest one.
-/

namespace ItemSql.Json

/-- The parts of a number as written. -/
structure Numeral where
  negative : Bool
  /-- The digits before the point. -/
  whole : List Nat
  /-- The digits behind the point, if there is one. -/
  fraction? : Option (List Nat)
  /-- The exponent, if there is one. -/
  exponent? : Option Int
  deriving DecidableEq, Repr

/-- The value of a number. -/
inductive Number where
  | integer (n : Int)
  | double (x : Float)
  deriving Repr

namespace Numeral

/-- One more than the greatest significand. -/
def significandBound : Nat := Nat.pow 2 64

/-- Takes the digits into a significand for as long as it fits, and leaves the others. -/
def absorb (significand : Nat) : List Nat → Nat × List Nat
  | [] => (significand, [])
  | d :: ds =>
    if 10 * significand + d < significandBound then absorb (10 * significand + d) ds
    else (significand, d :: ds)

/-- A power of ten as a double. -/
def power (n : Nat) : Float :=
  Float.ofScientific 1 false n

/-- The greatest power of ten that a double holds. -/
def greatestPower : Nat := 308

/-- The product of a significand and a power of ten; none if it is beyond all doubles. Where the
power is too small for a double, the significand is divided in two steps; what lies below even that
is zero. -/
def scale (significand : Nat) (exponent : Int) : Option Float :=
  let x := significand.toUInt64.toFloat
  let n := exponent.natAbs
  if 0 ≤ exponent then
    if n ≤ greatestPower then
      let y := x * power n
      if y.isInf then none else some y
    else if significand = 0 then some x else none
  else if n ≤ greatestPower then some (x / power n)
  else if n ≤ 2 * greatestPower then some (x / power greatestPower / power (n - greatestPower))
  else some 0

/-- The double that a number is read as; none if it is beyond all doubles. -/
def double? (n : Numeral) : Option Float :=
  let fraction := n.fraction?.getD []
  let (front, wholeLeft) := absorb 0 n.whole
  let (significand, fractionLeft) := absorb front fraction
  let exponent : Int :=
    wholeLeft.length - (fraction.length - fractionLeft.length : Nat) + n.exponent?.getD 0
  (scale significand exponent).map fun x ↦ if n.negative then -x else x

/-- The value of the digits before the point. -/
def wholeValue (n : Numeral) : Nat :=
  n.whole.foldl (fun v d ↦ 10 * v + d) 0

/-- The integer a number is read as, if it is one. -/
def integer? (n : Numeral) : Option Int :=
  if n.fraction?.isSome || n.exponent?.isSome then none
  else if n.negative then
    if n.wholeValue ≠ 0 ∧ n.wholeValue ≤ Nat.pow 2 63 then some (-(n.wholeValue : Int)) else none
  else if n.wholeValue < Nat.pow 2 64 then some n.wholeValue else none

/-- What a number is read as; none if it is beyond all doubles. -/
def value? (n : Numeral) : Option Number :=
  match n.integer? with
  | some i => some (.integer i)
  | none => n.double?.map .double

end Numeral

end ItemSql.Json
