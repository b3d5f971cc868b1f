import ItemSql.Decimal.Integer

/-!
# Doubles in decimal

The text of a number is read as the double nearest to it. A sign may stand before it; the digits may
have a point among them, before them or after them; an exponent may follow. A text may also name
infinity, or the value that is no number, in any letter case.
-/

namespace ItemSql.Decimal

/-- The double nearest to `n * 10 ^ exponent`. The exponents that leave the range of doubles, on
either side, are settled before any power is taken. -/
def nearest (n : Nat) (exponent : Int) : Float :=
  let leading := exponent + (digits n).length
  if n = 0 ∨ leading < -330 then 0
  else if 310 < leading then Float.ofBits 0x7FF0000000000000
  else if exponent < 0 then Float.ofScientific n true exponent.natAbs
  else Float.ofScientific n false exponent.natAbs

/-- The exponent that stands after the digits, if the text has nothing else there. -/
def exponentPart? : List Char → Option Int
  | [] => some 0
  | c :: cs => if c = 'e' ∨ c = 'E' then integer? cs else none

/-- Splits the ASCII digits from the front. -/
def splitDigits (cs : List Char) : List Char × List Char :=
  (cs.takeWhile Char.isDigit, cs.dropWhile Char.isDigit)

/-- Reads the digits of a number without its sign. -/
def magnitude? (cs : List Char) : Option Float :=
  let (whole, rest) := splitDigits cs
  let (fraction, rest) :=
    match rest with
    | '.' :: rest => splitDigits rest
    | _ => ([], rest)
  if whole = [] ∧ fraction = [] then none
  else (exponentPart? rest).map fun e ↦
    nearest (Nat.ofDigitChars 10 (whole ++ fraction) 0) (e - fraction.length)

/-- Reads a number without its sign, or the name of a value that has no digits. -/
def unsigned? (cs : List Char) : Option Float :=
  let word := String.ofList (cs.map Char.toLower)
  if word = "inf" ∨ word = "infinity" then some (Float.ofBits 0x7FF0000000000000)
  else if word = "nan" then some (Float.ofBits 0x7FF8000000000000)
  else magnitude? cs

/-- Reads a double. -/
def double? (text : String) : Option Float :=
  match text.toList with
  | '+' :: cs => unsigned? cs
  | '-' :: cs => (unsigned? cs).map fun x ↦ -x
  | cs => unsigned? cs

/-- The order of two doubles; none if one of them is no number. -/
def compare? (x y : Float) : Option Ordering :=
  if x < y then some .lt
  else if x == y then some .eq
  else if y < x then some .gt
  else none

end ItemSql.Decimal
