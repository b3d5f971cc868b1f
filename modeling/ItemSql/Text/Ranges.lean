/-!
# Ranges of code points

A property of characters is given by a table: disjoint ranges of code points, in increasing order.
The order lets a look-up stop at the first range that begins above the code point asked for.
-/

namespace ItemSql.Text

/-- Whether `n` lies in one of the ranges, both ends included. The ranges are in increasing
order. -/
def inRanges (n : Nat) : List (Nat × Nat) → Bool
  | [] => false
  | (low, high) :: rest => if n < low then false else n ≤ high || inRanges n rest

end ItemSql.Text
