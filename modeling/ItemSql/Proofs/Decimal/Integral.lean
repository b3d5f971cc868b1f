import ItemSql.Decimal.Integer

/-!
# Texts of integers

`Integral` says which texts of a statement are integers and what their value is: digits, with a
minus sign before them or without. The reader accepts a plus sign too, so the two agree on texts
that do not begin with one. No number of a statement does.
-/

namespace ItemSql.Decimal

/-- Digits, with a minus sign before them or without, and their value. -/
inductive Integral : List Char → Int → Prop
  | plain {ds : List Char} (hne : ds ≠ []) (hdigits : ∀ d ∈ ds, d.isDigit = true) :
      Integral ds (Nat.ofDigitChars 10 ds 0)
  | negative {ds : List Char} (hne : ds ≠ []) (hdigits : ∀ d ∈ ds, d.isDigit = true) :
      Integral ('-' :: ds) (-(Nat.ofDigitChars 10 ds 0 : Int))

theorem natural?_eq_some_iff {cs : List Char} {n : Nat} :
    natural? cs = some n ↔
      (cs ≠ [] ∧ ∀ d ∈ cs, d.isDigit = true) ∧ n = Nat.ofDigitChars 10 cs 0 := by
  rw [natural?, Option.ite_none_right_eq_some, Option.some_inj, List.all_eq_true, eq_comm (a := n)]

theorem integer?_of_unsigned {c : Char} {cs : List Char} (hplus : c ≠ '+') (hminus : c ≠ '-') :
    integer? (c :: cs) = (natural? (c :: cs)).map Int.ofNat := by
  unfold integer?
  split
  · rename_i h; exact absurd (List.cons.inj h).1 hplus
  · rename_i h; exact absurd (List.cons.inj h).1 hminus
  · rfl

/-- A text whose first character is no digit and no sign is no integer. -/
theorem integer?_eq_none {c : Char} {cs : List Char} (hdigit : c.isDigit = false)
    (hplus : c ≠ '+') (hminus : c ≠ '-') : integer? (c :: cs) = none := by
  have hnatural : natural? (c :: cs) = none := by
    rw [natural?, if_neg]
    simp [hdigit]
  rw [integer?_of_unsigned hplus hminus, hnatural]
  rfl

theorem integer?_singleton {c : Char} (hdigit : c.isDigit = false) : integer? [c] = none := by
  by_cases hplus : c = '+'
  · subst hplus; rfl
  by_cases hminus : c = '-'
  · subst hminus; rfl
  exact integer?_eq_none hdigit hplus hminus

theorem integer?_eq_some_iff {cs : List Char} (hplus : ∀ ds, cs ≠ '+' :: ds) {z : Int} :
    integer? cs = some z ↔ Integral cs z := by
  constructor
  · intro h
    unfold integer? at h
    split at h
    · exact absurd rfl (hplus _)
    · obtain ⟨m, hm, rfl⟩ := Option.map_eq_some_iff.mp h
      obtain ⟨n, hn, hmn⟩ := Option.bind_eq_some_iff.mp hm
      obtain rfl := Option.some_inj.mp hmn
      obtain ⟨⟨hne, hdigits⟩, rfl⟩ := natural?_eq_some_iff.mp hn
      exact .negative hne hdigits
    · obtain ⟨n, hn, rfl⟩ := Option.map_eq_some_iff.mp h
      obtain ⟨⟨hne, hdigits⟩, rfl⟩ := natural?_eq_some_iff.mp hn
      exact .plain hne hdigits
  · intro h
    cases h with
    | negative hne hdigits =>
      rw [integer?, natural?_eq_some_iff.mpr ⟨⟨hne, hdigits⟩, rfl⟩]
      rfl
    | plain hne hdigits =>
      have hnatural := natural?_eq_some_iff.mpr ⟨⟨hne, hdigits⟩, rfl⟩
      unfold integer?
      split
      · exact absurd rfl (hplus _)
      · exact absurd (hdigits '-' List.mem_cons_self) (by decide)
      · rw [hnatural]
        rfl

/-- The value is within 64 bits. -/
theorem int64?_eq_some_iff {text : String} (hplus : ∀ ds, text.toList ≠ '+' :: ds) {n : Int64} :
    int64? text = some n ↔
      ∃ z, Integral text.toList z ∧ Int64.minValue.toInt ≤ z ∧ z ≤ Int64.maxValue.toInt ∧
        n = Int64.ofInt z := by
  rw [int64?, Option.bind_eq_some_iff]
  refine exists_congr fun z ↦ ?_
  rw [integer?_eq_some_iff hplus, toInt64?, Option.ite_none_right_eq_some, Option.some_inj,
    and_assoc, eq_comm (a := n)]

/-- The value is within 32 bits. -/
theorem int32?_eq_some_iff {text : String} (hplus : ∀ ds, text.toList ≠ '+' :: ds) {n : Int32} :
    int32? text = some n ↔
      ∃ z, Integral text.toList z ∧ Int32.minValue.toInt ≤ z ∧ z ≤ Int32.maxValue.toInt ∧
        n = Int32.ofInt z := by
  rw [int32?, Option.bind_eq_some_iff]
  refine exists_congr fun z ↦ ?_
  rw [integer?_eq_some_iff hplus, toInt32?, Option.ite_none_right_eq_some, Option.some_inj,
    and_assoc, eq_comm (a := n)]

/-- The sign of a value within 32 bits is kept. -/
theorem zero_le_ofInt_iff {z : Int} (hlow : Int32.minValue.toInt ≤ z)
    (hhigh : z ≤ Int32.maxValue.toInt) : 0 ≤ Int32.ofInt z ↔ 0 ≤ z := by
  rw [Int32.le_iff_toInt_le, Int32.toInt_ofInt_of_le hlow (Int.lt_add_one_of_le hhigh)]
  rfl

end ItemSql.Decimal
