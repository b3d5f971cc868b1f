import ItemSql.Proofs.Decimal.Double
import Mathlib.Data.Int.Order.Basic
import Mathlib.Data.Prod.Lex

/-!
# The order of doubles

Doubles that are numbers are compared by where they stand on a line: the sign first, then the
exponent, then the mantissa, the last two the other way round below zero. So their comparison is a
linear order up to the two zeros, which stand at one place.
-/

namespace ItemSql.Decimal

open Float.Model (UnpackedFloat)

variable {f g : UnpackedFloat} {x y : Float}

/-- Where a value stands among numbers. What is no number stands nowhere, and is put with zero. -/
def place : UnpackedFloat → ℤ ×ₗ ℤ ×ₗ ℤ
  | .infinity .negative => toLex (-2, toLex (0, 0))
  | .finite .negative m e _ => toLex (-1, toLex (-e, -m))
  | .zero _ | .notANumber => toLex (0, toLex (0, 0))
  | .finite .positive m e _ => toLex (1, toLex (e, m))
  | .infinity .positive => toLex (2, toLex (0, 0))

theorem compare_toLex (a a' b b' c c' : ℤ) :
    compare (toLex (a, toLex (b, c))) (toLex (a', toLex (b', c'))) =
      (compare a a').then ((compare b b').then (compare c c')) :=
  rfl

theorem compare_natCast (a b : ℕ) : compare (a : ℤ) (b : ℤ) = compare a b := by
  simp [compare, compareOfLessAndEq]

theorem compare_neg (a b : ℤ) : compare (-a) (-b) = (compare a b).swap := by
  rw [← Std.OrientedOrd.eq_swap]
  simp [compare, compareOfLessAndEq, eq_comm]

/-- Numbers are compared by their places. -/
theorem compare_eq_compare_place (hf : f.isNaN = false) (hg : g.isNaN = false) :
    f.compare g = some (compare (place f) (place g)) := by
  cases f with
  | notANumber => cases hf
  | infinity s =>
    cases g with
    | notANumber => cases hg
    | infinity s' => cases s <;> cases s' <;> rfl
    | zero s' => cases s <;> rfl
    | finite s' m e hm => cases s <;> cases s' <;> rfl
  | zero s =>
    cases g with
    | notANumber => cases hg
    | infinity s' => cases s' <;> rfl
    | zero s' => rfl
    | finite s' m e hm => cases s' <;> rfl
  | finite s m e hm =>
    cases g with
    | notANumber => cases hg
    | infinity s' => cases s <;> cases s' <;> rfl
    | zero s' => cases s <;> rfl
    | finite s' m' e' hm' =>
      cases s <;> cases s'
      · rw [UnpackedFloat.compare, place, place, compare_toLex, compare_neg e e',
          compare_neg m m', compare_natCast, Ordering.swap_then]
        rfl
      · rfl
      · rfl
      · rw [UnpackedFloat.compare, place, place, compare_toLex, compare_natCast]
        rfl

/-- Where a double stands among numbers. -/
def placeOf (x : Float) : ℤ ×ₗ ℤ ×ₗ ℤ :=
  place x.toModel.unpack

/-- Doubles that are numbers are compared by their places. -/
theorem compare?_eq_compare_place (hx : x.isNaN = false) (hy : y.isNaN = false) :
    compare? x y = some (compare (placeOf x) (placeOf y)) := by
  have hcompare : x.toModel.unpack.compare y.toModel.unpack =
      some (compare (placeOf x) (placeOf y)) :=
    compare_eq_compare_place hx hy
  have hswap : y.toModel.unpack.compare x.toModel.unpack =
      some (compare (placeOf y) (placeOf x)) :=
    compare_eq_compare_place hy hx
  simp only [compare?, lt_iff_compare, beq_iff_compare, hcompare, hswap, Option.some_inj]
  rw [Std.OrientedOrd.eq_swap (a := placeOf y)]
  cases compare (placeOf x) (placeOf y) <;> rfl

end ItemSql.Decimal
