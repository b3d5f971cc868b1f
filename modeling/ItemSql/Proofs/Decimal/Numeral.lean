import ItemSql.Decimal.Double
import ItemSql.Decimal.Layout
import ItemSql.Proofs.Text.Case

/-!
# Texts of numbers

A *numeral* is the text of a number as a statement has it: digits with a minus sign before them or
without, and behind them a fraction and an exponent if there are any. The reader of doubles accepts
much more. Of a numeral it reads every part, and neither the digits nor the exponent are ever
refused for their size (`exists_double?`). Whatever is written of an integer, or of a double without
an exponent, is a numeral.
-/

namespace ItemSql.Decimal

/-! ## Numerals -/

/-- One or more ASCII digits. -/
def IsDigits (ds : List Char) : Prop :=
  ds ≠ [] ∧ ∀ d ∈ ds, d.isDigit = true

/-- A point and the digits behind it, if there are any. -/
inductive Fraction : List Char → Prop
  | none : Fraction []
  | some {ds : List Char} (hds : IsDigits ds) : Fraction ('.' :: ds)

/-- The mark of an exponent, a sign or none, and the digits behind it, if there are any. -/
inductive Exponent : List Char → Prop
  | none : Exponent []
  | some {mark : Char} {sign ds : List Char} (hmark : mark = 'e' ∨ mark = 'E')
      (hsign : sign ∈ [[], ['+'], ['-']]) (hds : IsDigits ds) : Exponent (mark :: (sign ++ ds))

/-- The text of a number, without a sign. -/
inductive Unsigned : List Char → Prop
  | mk {whole fraction exponent : List Char} (hwhole : IsDigits whole)
      (hfraction : Fraction fraction) (hexponent : Exponent exponent) :
      Unsigned (whole ++ (fraction ++ exponent))

/-- The text of a number. -/
inductive Numeral : List Char → Prop
  | plain {cs : List Char} (h : Unsigned cs) : Numeral cs
  | negative {cs : List Char} (h : Unsigned cs) : Numeral ('-' :: cs)

/-! ## Their parts -/

variable {cs ds rest : List Char}

theorem IsDigits.exists_cons (h : IsDigits ds) : ∃ d ds', ds = d :: ds' ∧ d.isDigit = true := by
  obtain ⟨hne, hdigits⟩ := h
  obtain ⟨d, ds', rfl⟩ := List.exists_cons_of_ne_nil hne
  exact ⟨d, ds', rfl, hdigits d List.mem_cons_self⟩

theorem IsDigits.unsigned (h : IsDigits ds) : Unsigned ds := by
  have hunsigned := Unsigned.mk h .none .none
  rwa [List.append_nil, List.append_nil] at hunsigned

theorem isDigits_digits (n : ℕ) : IsDigits (digits n) :=
  ⟨digits_ne_nil n, fun _ hd ↦ isDigit_of_mem_digits hd⟩

theorem numeral_ofInt (z : ℤ) : Numeral (ofInt z).toList := by
  rw [ofInt, String.toList_ofList]
  cases z with
  | ofNat n => exact .plain (isDigits_digits n).unsigned
  | negSucc n => exact .negative (isDigits_digits (n + 1)).unsigned

theorem ne_sign_of_isDigit {d : Char} (h : d.isDigit = true) : d ≠ '+' ∧ d ≠ '-' := by
  constructor
  · rintro rfl
    exact absurd h (by decide)
  · rintro rfl
    exact absurd h (by decide)

theorem IsDigits.exists_natural? (h : IsDigits ds) : ∃ n, natural? ds = some n :=
  ⟨_, natural?_eq_some_iff.mpr ⟨h, rfl⟩⟩

theorem splitDigits_append (h : ∀ d ∈ ds, d.isDigit = true)
    (hrest : ∀ c cs, rest = c :: cs → c.isDigit = false) :
    splitDigits (ds ++ rest) = (ds, rest) := by
  rw [splitDigits, List.takeWhile_append_of_pos h, List.dropWhile_append_of_pos h]
  cases rest with
  | nil => rw [List.takeWhile_nil, List.dropWhile_nil, List.append_nil]
  | cons c cs =>
    have hc : ¬ c.isDigit = true := Bool.eq_false_iff.mp (hrest c cs rfl)
    rw [List.takeWhile_cons_of_neg hc, List.dropWhile_cons_of_neg hc, List.append_nil]

theorem Exponent.exists_exponentPart? (h : Exponent cs) : ∃ e, exponentPart? cs = .some e := by
  cases h with
  | none => exact ⟨0, rfl⟩
  | @some mark sign ds hmark hsign hds =>
    obtain ⟨n, hn⟩ := hds.exists_natural?
    rw [exponentPart?, if_pos hmark]
    simp only [List.mem_cons, List.not_mem_nil, or_false] at hsign
    rcases hsign with rfl | rfl | rfl
    · obtain ⟨d, ds', rfl, hd⟩ := hds.exists_cons
      obtain ⟨hplus, hminus⟩ := ne_sign_of_isDigit hd
      exact ⟨n, by rw [List.nil_append, integer?_of_unsigned hplus hminus, hn]; rfl⟩
    · exact ⟨n, by rw [List.singleton_append, integer?, hn]; rfl⟩
    · exact ⟨-n, by rw [List.singleton_append, integer?, hn]; rfl⟩

theorem Exponent.not_digit (h : Exponent cs) {c : Char} (hcs : cs = c :: ds) :
    c.isDigit = false ∧ c ≠ '.' := by
  cases h with
  | none => cases hcs
  | some hmark =>
    obtain ⟨rfl, -⟩ := List.cons.inj hcs
    rcases hmark with rfl | rfl <;> decide

/-! ## Reading -/

/-- All digits of a numeral are read, and its exponent is. -/
theorem Unsigned.exists_magnitude? (h : Unsigned cs) :
    ∃ n e, magnitude? cs = some (nearest n e) := by
  obtain ⟨hwhole, hfraction, hexponent⟩ := h
  obtain ⟨e, he⟩ := hexponent.exists_exponentPart?
  cases hfraction with
  | none =>
    rw [List.nil_append, magnitude?,
      splitDigits_append hwhole.2 fun c cs hcs ↦ (hexponent.not_digit hcs).1]
    dsimp only
    split
    · exact absurd rfl (hexponent.not_digit rfl).2
    · rw [if_neg fun h ↦ hwhole.1 h.1, he]
      exact ⟨_, _, rfl⟩
  | some hds =>
    rw [List.cons_append, magnitude?, splitDigits_append hwhole.2]
    · have hsplit := splitDigits_append hds.2 fun c cs hcs ↦ (hexponent.not_digit hcs).1
      simp only [hsplit]
      rw [if_neg fun h ↦ hwhole.1 h.1, he]
      exact ⟨_, _, rfl⟩
    · rintro c cs hcs
      obtain ⟨rfl, -⟩ := List.cons.inj hcs
      decide

/-- A digit begins neither the name of infinity nor that of the value that is no number. -/
theorem unsigned?_of_isDigit {c : Char} (hc : c.isDigit = true) (cs : List Char) :
    unsigned? (c :: cs) = magnitude? (c :: cs) := by
  have hword {word : String} {d : Char} {ds : List Char} (hword : word.toList = d :: ds)
      (hd : d.isDigit = false) : String.ofList ((c :: cs).map Char.toLower) ≠ word := by
    rintro rfl
    rw [String.toList_ofList, List.map_cons] at hword
    obtain ⟨rfl, -⟩ := List.cons.inj hword
    rw [toLower_of_isDigit hc, hc] at hd
    cases hd
  rw [unsigned?, if_neg, if_neg]
  · exact hword rfl rfl
  · exact not_or.mpr ⟨hword rfl rfl, hword rfl rfl⟩

theorem Unsigned.exists_cons (h : Unsigned cs) : ∃ d ds, cs = d :: ds ∧ d.isDigit = true := by
  obtain ⟨hwhole, -, -⟩ := h
  obtain ⟨d, ds, rfl, hd⟩ := hwhole.exists_cons
  exact ⟨d, _, rfl, hd⟩

/-- A numeral is read as the double nearest to a decimal, or as the negative of one. -/
theorem Numeral.exists_double? {text : String} (h : Numeral text.toList) :
    ∃ n e, double? text = some (nearest n e) ∨ double? text = some (-nearest n e) := by
  rw [double?]
  generalize text.toList = cs at h
  cases h with
  | plain h =>
    obtain ⟨n, e, hmagnitude⟩ := h.exists_magnitude?
    obtain ⟨d, ds, rfl, hd⟩ := h.exists_cons
    obtain ⟨hplus, hminus⟩ := ne_sign_of_isDigit hd
    refine ⟨n, e, .inl ?_⟩
    split
    · rename_i hcs
      exact absurd (List.cons.inj hcs).1 hplus
    · rename_i hcs
      exact absurd (List.cons.inj hcs).1 hminus
    · rw [unsigned?_of_isDigit hd, hmagnitude]
  | negative h =>
    obtain ⟨n, e, hmagnitude⟩ := h.exists_magnitude?
    obtain ⟨d, ds, rfl, hd⟩ := h.exists_cons
    refine ⟨n, e, .inr ?_⟩
    change (unsigned? (d :: ds)).map (fun x ↦ -x) = _
    rw [unsigned?_of_isDigit hd, hmagnitude]
    rfl

/-! ## Writing -/

theorem isDigit_of_mem_replicate {n : ℕ} : ∀ d ∈ List.replicate n '0', d.isDigit = true := by
  intro d hd
  obtain rfl := List.eq_of_mem_replicate hd
  rfl

/-- A point among digits makes a numeral, if some of them stand on either side. -/
theorem unsigned_point (hds : ∀ d ∈ ds, d.isDigit = true) {places : ℕ} (hsome : 0 < places)
    (hlength : places < ds.length) :
    Unsigned (ds.take (ds.length - places) ++ '.' :: ds.drop (ds.length - places)) := by
  have hwhole : IsDigits (ds.take (ds.length - places)) := by
    refine ⟨List.ne_nil_of_length_pos ?_, fun d hd ↦ hds d (List.mem_of_mem_take hd)⟩
    rw [List.length_take]
    omega
  have hfraction : IsDigits (ds.drop (ds.length - places)) := by
    refine ⟨List.ne_nil_of_length_pos ?_, fun d hd ↦ hds d (List.mem_of_mem_drop hd)⟩
    rw [List.length_drop]
    omega
  have hunsigned := Unsigned.mk hwhole (.some hfraction) .none
  rwa [List.append_nil] at hunsigned

/-- Digits around the point are a numeral: the zeros before them leave one for the whole part. -/
theorem Scaled.unsigned_positional (x : Scaled) : Unsigned (x.positional "").toList := by
  have hdigits := isDigits_digits x.significand
  rw [Scaled.positional]
  dsimp only
  split
  · rw [String.append_empty, String.toList_ofList]
    exact IsDigits.unsigned ⟨List.append_ne_nil_of_left_ne_nil hdigits.1 _,
      List.forall_mem_append.mpr ⟨hdigits.2, isDigit_of_mem_replicate⟩⟩
  · rename_i hexponent
    rw [String.toList_ofList]
    refine unsigned_point (List.forall_mem_append.mpr ⟨isDigit_of_mem_replicate, hdigits.2⟩)
      (by omega) ?_
    rw [List.length_append, List.length_replicate]
    omega

/-- A double that is written without an exponent is a numeral. -/
theorem numeral_write_plain (bits : UInt64) : Numeral (Layout.plain.write bits).toList := by
  have hbody := (shortest Layout.plain.tieLow bits).unsigned_positional
  have hwrite : Layout.plain.write bits =
      if isNegative bits then "-" ++ (shortest Layout.plain.tieLow bits).positional ""
      else (shortest Layout.plain.tieLow bits).positional "" := rfl
  rw [hwrite]
  split
  · rw [String.toList_append]
    exact .negative hbody
  · exact .plain hbody

end ItemSql.Decimal
