import ItemSql.Proofs.Decimal.Numeral
import ItemSql.Proofs.Projection

/-!
# Two policies for numbers

A number that is no integer of 64 bits has no cell of its own. The lenient policy reads it as zero,
the strict one fails the row. Nothing else depends on the policy, so the lenient cell is a function
of the strict one (`realize_lenient`), and a lenient row never fails.

Which numbers these are is said here without a reader: `Signed` is the text of an integer and its
value. The reader accepts just these texts (`int64?_eq_none_iff`).
-/

namespace ItemSql

namespace Decimal

/-- The text of an integer, digits behind a sign of either kind or none, and its value. -/
inductive Signed : List Char → Int → Prop
  | unsigned {ds : List Char} (hds : IsDigits ds) : Signed ds (Nat.ofDigitChars 10 ds 0)
  | plus {ds : List Char} (hds : IsDigits ds) : Signed ('+' :: ds) (Nat.ofDigitChars 10 ds 0)
  | minus {ds : List Char} (hds : IsDigits ds) :
      Signed ('-' :: ds) (-(Nat.ofDigitChars 10 ds 0 : Int))

theorem IsDigits.natural?_eq {ds : List Char} (h : IsDigits ds) :
    natural? ds = some (Nat.ofDigitChars 10 ds 0) :=
  natural?_eq_some_iff.mpr ⟨h, rfl⟩

/-- What is read as an integer is the text of that integer. -/
theorem integer?_eq_some_iff_signed {cs : List Char} {z : Int} :
    integer? cs = some z ↔ Signed cs z := by
  constructor
  · intro h
    unfold integer? at h
    split at h
    · obtain ⟨n, hn, rfl⟩ := Option.map_eq_some_iff.mp h
      obtain ⟨hds, rfl⟩ := natural?_eq_some_iff.mp hn
      exact .plus hds
    · obtain ⟨m, hm, rfl⟩ := Option.map_eq_some_iff.mp h
      obtain ⟨n, hn, hmn⟩ := Option.bind_eq_some_iff.mp hm
      obtain rfl := Option.some_inj.mp hmn
      obtain ⟨hds, rfl⟩ := natural?_eq_some_iff.mp hn
      exact .minus hds
    · obtain ⟨n, hn, rfl⟩ := Option.map_eq_some_iff.mp h
      obtain ⟨hds, rfl⟩ := natural?_eq_some_iff.mp hn
      exact .unsigned hds
  · intro h
    cases h with
    | plus hds | minus hds =>
      rw [integer?, hds.natural?_eq]
      rfl
    | unsigned hds =>
      obtain ⟨d, ds', rfl, hd⟩ := hds.exists_cons
      obtain ⟨hplus, hminus⟩ := ne_sign_of_isDigit hd
      rw [integer?_of_unsigned hplus hminus, hds.natural?_eq]
      rfl

/-- Whether the value is one of 64 bits. -/
def InRange (z : Int) : Prop :=
  -2 ^ 63 ≤ z ∧ z ≤ 2 ^ 63 - 1

theorem int64?_eq_none_iff {text : String} :
    int64? text = none ↔ ¬ ∃ z, Signed text.toList z ∧ InRange z := by
  rw [int64?, Option.bind_eq_none_iff, not_exists]
  refine forall_congr' fun z ↦ ?_
  have hmin : Int64.minValue.toInt = -2 ^ 63 := rfl
  have hmax : Int64.maxValue.toInt = 2 ^ 63 - 1 := rfl
  have hrange : toInt64? z = none ↔ ¬ InRange z := by
    rw [toInt64?, hmin, hmax, InRange]
    split
    · rename_i hz
      exact iff_of_false (Option.some_ne_none _) (not_not_intro hz)
    · rename_i hz
      exact iff_of_true rfl hz
  rw [integer?_eq_some_iff_signed, hrange, not_and]

end Decimal

open Decimal

variable {columns : List String} {item : Item}

/-! ## One cell -/

/-- The text has something in it but white space, and this is no integer of 64 bits. -/
def Unreadable (text : String) : Prop :=
  Text.trim text ≠ "" ∧ ¬ ∃ z, Signed (Text.trim text).toList z ∧ InRange z

/-- The item has for the column a number of such a text. -/
def Failing (item : Item) (column text : String) : Prop :=
  item.get? column = some (.number text) ∧ Unreadable text

theorem realize_strict_eq_error_iff {column : String} {e : RowError} :
    realize (item.get? column) column .strict = .error e ↔
      ∃ text, Failing item column text ∧ e = .invalidNumber column text := by
  rw [realize_eq_error_iff]
  simp only [true_and, int64?_eq_none_iff, Failing, Unreadable, and_assoc]

theorem exists_realize_strict_iff {column : String} :
    (∃ cell, realize (item.get? column) column .strict = .ok cell) ↔
      ∀ text, ¬ Failing item column text := by
  constructor
  · rintro ⟨cell, hcell⟩ text htext
    cases hcell.symm.trans (realize_strict_eq_error_iff.mpr ⟨text, htext, rfl⟩)
  · intro h
    cases hcell : realize (item.get? column) column .strict with
    | ok cell => exact ⟨cell, rfl⟩
    | error e =>
      obtain ⟨text, htext, -⟩ := realize_strict_eq_error_iff.mp hcell
      exact absurd htext (h text)

/-- The cell that stands where the strict policy has this outcome. -/
def lenientCell : Except RowError Cell → Cell
  | .ok cell => cell
  | .error _ => .int 0

theorem realize_lenient (value? : Option AttributeValue) (column : String) :
    realize value? column .lenient = .ok (lenientCell (realize value? column .strict)) := by
  match value? with
  | none | some .null => rfl
  | some (.string content) =>
    rw [realize, realize]
    split <;> rfl
  | some (.number text) =>
    rw [realize, realize, realizeNumber.eq_def, realizeNumber.eq_def]
    dsimp only
    split
    · rfl
    · cases int64? (Text.trim text) <;> rfl

/-! ## Rows -/

theorem realizeRow_lenient (columns : List String) (item : Item) :
    realizeRow columns item .lenient =
      .ok (columns.map fun column ↦ lenientCell (realize (item.get? column) column .strict)) := by
  rw [realizeRow_eq_ok_iff, List.forall₂_map_right_iff, List.forall₂_same]
  exact fun column _ ↦ realize_lenient _ column

/-- What the two policies make of an item. -/
structure Policies (columns : List String) (item : Item) : Prop where
  lenient : ∃ row, realizeRow columns item .lenient = .ok row
  strict_iff : (∃ e, realizeRow columns item .strict = .error e) ↔
    ∃ column ∈ columns, ∃ text, Failing item column text
  /-- The first column that fails is named, with the text as it is stored. -/
  first (e : RowError) : realizeRow columns item .strict = .error e →
    ∃ before column after text, columns = before ++ column :: after ∧
      (∀ c ∈ before, ∀ text, ¬ Failing item c text) ∧ Failing item column text ∧
      e = .invalidNumber column text
  same (row : List Cell) : realizeRow columns item .strict = .ok row →
    realizeRow columns item .lenient = .ok row
  /-- A lenient cell is the strict one, or zero where there is none. -/
  cells (row : List Cell) : realizeRow columns item .lenient = .ok row →
    List.Forall₂ (fun column cell ↦
      realize (item.get? column) column .strict = .ok cell ∨
        (∃ text, Failing item column text) ∧ cell = .int 0) columns row

theorem exists_first_of_strict {e : RowError} (h : realizeRow columns item .strict = .error e) :
    ∃ before column after text, columns = before ++ column :: after ∧
      (∀ c ∈ before, ∀ text, ¬ Failing item c text) ∧ Failing item column text ∧
      e = .invalidNumber column text := by
  obtain ⟨before, column, after, hcolumns, hbefore, hcolumn⟩ := realizeRow_eq_error_iff.mp h
  obtain ⟨text, htext, he⟩ := realize_strict_eq_error_iff.mp hcolumn
  exact ⟨before, column, after, text, hcolumns,
    fun c hc ↦ exists_realize_strict_iff.mp (hbefore c hc), htext, he⟩

/-- Strictness adds errors and changes nothing else: a row fails for its first number that is no
integer, and where none is, both policies have the same row. -/
theorem policies (columns : List String) (item : Item) : Policies columns item where
  lenient := ⟨_, realizeRow_lenient columns item⟩
  strict_iff := by
    constructor
    · rintro ⟨e, he⟩
      obtain ⟨before, column, after, text, rfl, -, htext, -⟩ := exists_first_of_strict he
      exact ⟨column, List.mem_append_right _ List.mem_cons_self, text, htext⟩
    · rintro ⟨column, hcolumn, text, htext⟩
      cases hrow : realizeRow columns item .strict with
      | error e => exact ⟨e, rfl⟩
      | ok row =>
        obtain ⟨i, hi⟩ := List.mem_iff_getElem?.mp hcolumn
        obtain ⟨cell, -, hcell⟩ := exists_cell_of_realizeRow hrow hi
        exact absurd htext (exists_realize_strict_iff.mp ⟨cell, hcell⟩ text)
  first _ := exists_first_of_strict
  same row h := by
    rw [realizeRow_eq_ok_iff] at h ⊢
    refine h.imp fun column cell hcell ↦ ?_
    rw [realize_lenient, hcell]
    rfl
  cells row h := by
    rw [realizeRow_lenient] at h
    obtain rfl := Except.ok.inj h
    rw [List.forall₂_map_right_iff, List.forall₂_same]
    intro column _
    cases hcell : realize (item.get? column) column .strict with
    | ok cell => exact .inl rfl
    | error e =>
      obtain ⟨text, htext, -⟩ := realize_strict_eq_error_iff.mp hcell
      exact .inr ⟨⟨text, htext⟩, rfl⟩

/-- White space around a number and its sign do not matter; beyond 64 bits it is no integer. -/
example :
    let item : Item := .ofList [("a", .number "\u2003+007"), ("b", .number "9223372036854775808 "),
      ("c", .number "\n"), ("d", .number "1.0")]
    realizeRow ["a", "c", "e", "b", "d"] item .strict =
        .error (.invalidNumber "b" "9223372036854775808 ") ∧
      realizeRow ["a", "c", "e", "b", "d"] item .lenient =
        .ok [.int 7, .null, .null, .int 0, .int 0] := by
  decide +kernel

end ItemSql
