import ItemSql.Proofs.Decimal.Integral
import ItemSql.Proofs.Decimal.Numeral
import Mathlib.Algebra.Order.Field.Rat
import Mathlib.Data.Rat.Cast.Defs

/-!
# What numerals denote

A numeral denotes a rational number: what its digits are, the point where it stands, times the power
of ten that is its exponent. This says nothing of any reader. Many numerals denote one integer, and
only those of them that have neither a fraction nor an exponent are texts of integers
(`Denotes.integral_iff`).
-/

namespace ItemSql.Decimal

/-- What the digits behind the point add. -/
inductive FractionOf : List Char → ℚ → Prop
  | none : FractionOf [] 0
  | some {ds : List Char} (hds : IsDigits ds) :
      FractionOf ('.' :: ds) (Nat.ofDigitChars 10 ds 0 / 10 ^ ds.length)

/-- The exponent that is written. -/
inductive ExponentOf : List Char → ℤ → Prop
  | none : ExponentOf [] 0
  | unsigned {mark : Char} {ds : List Char} (hmark : mark = 'e' ∨ mark = 'E') (hds : IsDigits ds) :
      ExponentOf (mark :: ds) (Nat.ofDigitChars 10 ds 0)
  | positive {mark : Char} {ds : List Char} (hmark : mark = 'e' ∨ mark = 'E') (hds : IsDigits ds) :
      ExponentOf (mark :: '+' :: ds) (Nat.ofDigitChars 10 ds 0)
  | negative {mark : Char} {ds : List Char} (hmark : mark = 'e' ∨ mark = 'E') (hds : IsDigits ds) :
      ExponentOf (mark :: '-' :: ds) (-Nat.ofDigitChars 10 ds 0)

/-- The number that a numeral without a sign denotes. -/
inductive UnsignedDenotes : List Char → ℚ → Prop
  | mk {whole fraction exponent : List Char} {x : ℚ} {e : ℤ} (hwhole : IsDigits whole)
      (hfraction : FractionOf fraction x) (hexponent : ExponentOf exponent e) :
      UnsignedDenotes (whole ++ (fraction ++ exponent)) ((Nat.ofDigitChars 10 whole 0 + x) * 10 ^ e)

/-- The number that a numeral denotes. -/
inductive Denotes : List Char → ℚ → Prop
  | plain {cs : List Char} {v : ℚ} (h : UnsignedDenotes cs v) : Denotes cs v
  | negative {cs : List Char} {v : ℚ} (h : UnsignedDenotes cs v) : Denotes ('-' :: cs) (-v)

variable {cs : List Char} {v : ℚ}

/-! ## Every numeral denotes a number -/

theorem Fraction.exists_fractionOf (h : Fraction cs) : ∃ x, FractionOf cs x := by
  cases h with
  | none => exact ⟨_, .none⟩
  | some hds => exact ⟨_, .some hds⟩

theorem Exponent.exists_exponentOf (h : Exponent cs) : ∃ e, ExponentOf cs e := by
  cases h with
  | none => exact ⟨_, .none⟩
  | some hmark hsign hds =>
    simp only [List.mem_cons, List.not_mem_nil, or_false] at hsign
    rcases hsign with rfl | rfl | rfl
    · exact ⟨_, .unsigned hmark hds⟩
    · exact ⟨_, .positive hmark hds⟩
    · exact ⟨_, .negative hmark hds⟩

theorem Unsigned.exists_denotes (h : Unsigned cs) : ∃ v, UnsignedDenotes cs v := by
  obtain ⟨hwhole, hfraction, hexponent⟩ := h
  obtain ⟨x, hx⟩ := hfraction.exists_fractionOf
  obtain ⟨e, he⟩ := hexponent.exists_exponentOf
  exact ⟨_, .mk hwhole hx he⟩

theorem Numeral.exists_denotes (h : Numeral cs) : ∃ v, Denotes cs v := by
  cases h with
  | plain h =>
    obtain ⟨v, hv⟩ := h.exists_denotes
    exact ⟨v, .plain hv⟩
  | negative h =>
    obtain ⟨v, hv⟩ := h.exists_denotes
    exact ⟨-v, .negative hv⟩

/-! ## Texts of integers -/

/-- The text has neither a point nor the mark of an exponent. -/
def Unscaled (cs : List Char) : Prop :=
  ∀ c ∈ cs, c ∉ ['.', 'e', 'E']

instance (cs : List Char) : Decidable (Unscaled cs) :=
  List.decidableBAll (fun c ↦ c ∉ ['.', 'e', 'E']) cs

theorem Integral.unscaled {z : ℤ} (h : Integral cs z) : Unscaled cs := by
  have hdigit {c : Char} (hc : c.isDigit = true) : c ∉ ['.', 'e', 'E'] := by
    intro hmem
    simp only [List.mem_cons, List.not_mem_nil, or_false] at hmem
    rcases hmem with rfl | rfl | rfl <;> exact absurd hc (by decide)
  cases h with
  | plain _ hdigits => exact fun c hc ↦ hdigit (hdigits c hc)
  | negative _ hdigits =>
    exact List.forall_mem_cons.mpr ⟨by decide, fun c hc ↦ hdigit (hdigits c hc)⟩

theorem UnsignedDenotes.of_unscaled (h : UnsignedDenotes cs v) (hcs : Unscaled cs) :
    IsDigits cs ∧ v = Nat.ofDigitChars 10 cs 0 := by
  obtain @⟨whole, fraction, exponent, x, e, hwhole, hfraction, hexponent⟩ := h
  obtain ⟨-, hrest⟩ := List.forall_mem_append.mp hcs
  obtain ⟨hfractioncs, hexponentcs⟩ := List.forall_mem_append.mp hrest
  -- A fraction begins with the point and an exponent with its mark, so there is neither.
  cases hfraction with
  | some => exact absurd (List.mem_cons_self) (hfractioncs '.' List.mem_cons_self)
  | none =>
    have hmark {mark : Char} (hmark : mark = 'e' ∨ mark = 'E') : mark ∈ ['.', 'e', 'E'] := by
      rcases hmark with rfl | rfl <;> decide
    cases hexponent with
    | unsigned h | positive h | negative h =>
      exact absurd (hmark h) (hexponentcs _ List.mem_cons_self)
    | none =>
      rw [List.append_nil, List.append_nil, add_zero, zpow_zero, mul_one]
      exact ⟨hwhole, rfl⟩

theorem IsDigits.unsignedDenotes (h : IsDigits cs) :
    UnsignedDenotes cs (Nat.ofDigitChars 10 cs 0) := by
  have hdenotes := UnsignedDenotes.mk h .none .none
  rwa [List.append_nil, List.append_nil, add_zero, zpow_zero, mul_one] at hdenotes

/-- The text of an integer denotes it. -/
theorem Integral.denotes {z : ℤ} (h : Integral cs z) : Denotes cs z := by
  cases h with
  | plain hne hdigits =>
    rw [Int.cast_natCast]
    exact .plain (IsDigits.unsignedDenotes ⟨hne, hdigits⟩)
  | negative hne hdigits =>
    rw [Int.cast_neg, Int.cast_natCast]
    exact .negative (IsDigits.unsignedDenotes ⟨hne, hdigits⟩)

/-- A numeral that denotes an integer is the text of it exactly if it has neither a fraction nor an
exponent. -/
theorem Denotes.integral_iff {z : ℤ} (h : Denotes cs z) : Integral cs z ↔ Unscaled cs := by
  refine ⟨Integral.unscaled, fun hcs ↦ ?_⟩
  generalize hv : (z : ℚ) = v at h
  cases h with
  | plain h =>
    obtain ⟨hdigits, rfl⟩ := h.of_unscaled hcs
    obtain rfl : z = Nat.ofDigitChars 10 cs 0 := by exact_mod_cast hv
    exact .plain hdigits.1 hdigits.2
  | @negative ds _ h =>
    obtain ⟨hdigits, rfl⟩ := h.of_unscaled (List.forall_mem_cons.mp hcs).2
    obtain rfl : z = -Nat.ofDigitChars 10 ds 0 := by exact_mod_cast hv
    exact .negative hdigits.1 hdigits.2

end ItemSql.Decimal
