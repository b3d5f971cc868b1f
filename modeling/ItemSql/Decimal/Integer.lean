/-!
# Integers in decimal

An integer is written as its digits, with a minus sign before them if it is negative. Reading is
wider than writing: a plus sign and leading zeros are accepted too. Nothing else is: neither white
space, nor digits of other scripts, nor a sign alone.
-/

namespace ItemSql.Decimal

/-- The digits of a natural number. -/
def digits (n : Nat) : List Char :=
  Nat.toDigits 10 n

/-- The text of a natural number. -/
def ofNat (n : Nat) : String :=
  String.ofList (digits n)

/-- The characters of an integer. -/
def intChars : Int → List Char
  | .ofNat n => digits n
  | .negSucc n => '-' :: digits (n + 1)

/-- The text of an integer. -/
def ofInt (n : Int) : String :=
  String.ofList (intChars n)

/-- Reads one or more ASCII digits. -/
def natural? (cs : List Char) : Option Nat :=
  if cs ≠ [] ∧ cs.all Char.isDigit then some (Nat.ofDigitChars 10 cs 0) else none

/-- Reads an optional sign and the digits after it. -/
def integer? : List Char → Option Int
  | '+' :: cs => (natural? cs).map Int.ofNat
  | '-' :: cs => (natural? cs).map fun n ↦ -(n : Int)
  | cs => (natural? cs).map Int.ofNat

/-- The 64-bit integer of a value, if the value is in range. -/
def toInt64? (n : Int) : Option Int64 :=
  if Int64.minValue.toInt ≤ n ∧ n ≤ Int64.maxValue.toInt then some (Int64.ofInt n) else none

/-- The 32-bit integer of a value, if the value is in range. -/
def toInt32? (n : Int) : Option Int32 :=
  if Int32.minValue.toInt ≤ n ∧ n ≤ Int32.maxValue.toInt then some (Int32.ofInt n) else none

/-- Reads a 64-bit integer. -/
def int64? (text : String) : Option Int64 :=
  (integer? text.toList).bind toInt64?

/-- Reads a 32-bit integer. -/
def int32? (text : String) : Option Int32 :=
  (integer? text.toList).bind toInt32?

/-! ## What is written reads back -/

theorem digits_ne_nil (n : Nat) : digits n ≠ [] :=
  Nat.toDigits_ne_nil

theorem isDigit_of_mem_digits {n : Nat} {c : Char} (h : c ∈ digits n) : c.isDigit = true :=
  Nat.isDigit_of_mem_toDigits (by decide) (by decide) h

theorem natural?_digits (n : Nat) : natural? (digits n) = some n := by
  have hall : (digits n).all Char.isDigit = true :=
    List.all_eq_true.2 fun _ h ↦ isDigit_of_mem_digits h
  rw [natural?, if_pos ⟨digits_ne_nil n, hall⟩, digits,
    Nat.ofDigitChars_toDigits (by decide) (by decide)]

/-- A text of digits is read as they stand, because it begins with no sign. -/
theorem integer?_digits (n : Nat) : integer? (digits n) = some n := by
  have hsign : ∀ c ∈ digits n, c ≠ '+' ∧ c ≠ '-' := fun c hc ↦
    have := isDigit_of_mem_digits hc
    ⟨by rintro rfl; simp at this, by rintro rfl; simp at this⟩
  unfold integer?
  split
  · rename_i h; exact absurd rfl (hsign '+' (h ▸ List.mem_cons_self)).1
  · rename_i h; exact absurd rfl (hsign '-' (h ▸ List.mem_cons_self)).2
  · simp [natural?_digits]

theorem integer?_intChars (n : Int) : integer? (intChars n) = some n := by
  cases n with
  | ofNat n => exact integer?_digits n
  | negSucc n =>
    simp only [intChars, integer?, natural?_digits, Int.negSucc_eq]
    rfl

theorem toInt64?_toInt (n : Int64) : toInt64? n.toInt = some n := by
  rw [toInt64?, if_pos ⟨n.minValue_le_toInt, n.toInt_le⟩, Int64.ofInt_toInt]

theorem toInt32?_toInt (n : Int32) : toInt32? n.toInt = some n := by
  rw [toInt32?, if_pos ⟨n.minValue_le_toInt, n.toInt_le⟩, Int32.ofInt_toInt]

/-- The text of a 64-bit integer reads back as that integer. -/
theorem int64?_ofInt_toInt (n : Int64) : int64? (ofInt n.toInt) = some n := by
  simp [int64?, ofInt, integer?_intChars, toInt64?_toInt]

end ItemSql.Decimal
