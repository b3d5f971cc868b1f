/-!
# The shortest decimal of a double

A finite double stands for every real that rounds to it. The shortest decimal of the double is the
one of fewest digits among the decimals in that interval, and among those the one nearest to the
double itself.

The search goes over the grids of powers of ten, from the coarsest down: if a grid has a point in
the interval at all, it has one next to the double, below or above. The first grid with such a
point gives the fewest digits. All comparisons are between natural numbers, so nothing is rounded
on the way.
-/

namespace ItemSql.Decimal

/-- The positive number `significand * 2 ^ exponent`. -/
structure Dyadic where
  significand : Nat
  exponent : Int
  deriving DecidableEq, Repr

/-- The number `significand * 10 ^ exponent`. -/
structure Scaled where
  significand : Nat
  exponent : Int
  deriving DecidableEq, Repr

/-- The reals that round to a double: the double itself and both ends of the interval, all counted
in quarters of the double's last binary place. The ends belong to it if `closed`. -/
structure Interval where
  low : Nat
  value : Nat
  high : Nat
  /-- The power of two that a quarter of the last place is. -/
  exponent : Int
  closed : Bool
  deriving DecidableEq, Repr

/-- The fraction and the exponent fields of a double's bits, without its sign. -/
def fields (bits : UInt64) : Nat × Nat :=
  (bits.toNat % Nat.pow 2 52, bits.toNat / Nat.pow 2 52 % Nat.pow 2 11)

/-- Whether the bits are of a negative double, zero included. -/
def isNegative (bits : UInt64) : Bool :=
  bits.toNat / Nat.pow 2 63 = 1

/-- The absolute value of the finite double of the given bits. -/
def magnitude (bits : UInt64) : Dyadic :=
  let (fraction, exponent) := fields bits
  if exponent = 0 then ⟨fraction, -1074⟩ else ⟨Nat.pow 2 52 + fraction, (exponent : Int) - 1075⟩

/-- The reals that round to the double of the given bits. Below a power of two the doubles lie
twice as close, and a real halfway between two doubles goes to the even one. -/
def rounding (bits : UInt64) : Interval :=
  let (fraction, exponent) := fields bits
  let x := magnitude bits
  let below := if fraction = 0 ∧ 1 < exponent then 1 else 2
  ⟨4 * x.significand - below, 4 * x.significand, 4 * x.significand + 2, x.exponent - 2,
    x.significand % 2 = 0⟩

/-- The point of the grid `10 ^ k` that lies in the interval and is nearest to its value, if there
is one. Of two equally near points the lower one is taken if `low` says so of it. -/
def Interval.gridPoint? (i : Interval) (low : Nat → Bool) (k : Int) : Option Nat :=
  let scale := fun n ↦ n * Nat.pow 2 i.exponent.toNat * Nat.pow 10 (-k).toNat
  let unit := Nat.pow 2 (-i.exponent).toNat * Nat.pow 10 k.toNat
  let inside := fun n ↦
    if i.closed then scale i.low ≤ n * unit ∧ n * unit ≤ scale i.high
    else scale i.low < n * unit ∧ n * unit < scale i.high
  let below := scale i.value / unit
  let above := below + 1
  let toBelow := scale i.value - below * unit
  let toAbove := above * unit - scale i.value
  if inside below then
    if inside above ∧ (toAbove < toBelow ∨ toAbove = toBelow ∧ ¬ low below) then some above
    else some below
  else if inside above then some above
  else none

/-- No double reaches `10 ^ 309`, so the search begins there. -/
def coarsest : Int := 309

/-- The finest grid that any double needs: the least double above zero has one digit on it. -/
def finest : Int := -324

/-- The shortest decimal of the finite double of the given bits, by its absolute value. A tie
between two decimals goes to the lower one if `low` says so of its digits. -/
def shortest (low : Nat → Bool) (bits : UInt64) : Scaled :=
  if (magnitude bits).significand = 0 then ⟨0, 0⟩
  else
    let interval := rounding bits
    let grids := (List.range (coarsest - finest + 1).toNat).map fun step : Nat ↦ coarsest - step
    (grids.findSome? fun k ↦ (interval.gridPoint? low k).map fun n ↦ ⟨n, k⟩).getD ⟨0, 0⟩

end ItemSql.Decimal
