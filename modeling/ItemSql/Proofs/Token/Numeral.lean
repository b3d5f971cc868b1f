import ItemSql.Proofs.Decimal.Numeral
import ItemSql.Proofs.Token.Run
import ItemSql.Proofs.Token.Symbol

/-!
# Symbols of numbers

The scanner measures a number part by part, and each part that it measures has the form of this part
of a numeral. So the text of a number symbol is a numeral. Conversely no part of a numeral begins
with what goes on the part before it, so the scanner passes over none, whatever stands behind the
numeral, and a numeral by itself is one number symbol.
-/

namespace ItemSql.Token

open Decimal

variable {cs : List Char}

theorem isDigits_take (h : digitRun cs ≠ 0) : IsDigits (cs.take (digitRun cs)) := by
  have htake : cs.takeWhile Char.isDigit = cs.take (digitRun cs) :=
    List.prefix_iff_eq_take.mp (List.takeWhile_prefix _)
  rw [← htake]
  refine ⟨mt List.length_eq_zero_iff.mpr h, fun d hd ↦ ?_⟩
  exact List.all_eq_true.mp List.all_takeWhile d hd

/-- Digits are at the front if and only if the first character is one. -/
theorem digitRun_ne_zero_iff : digitRun cs ≠ 0 ↔ ∃ d ds, cs = d :: ds ∧ d.isDigit = true := by
  constructor
  · intro h
    obtain ⟨d, ds, htake, hd⟩ := (isDigits_take h).exists_cons
    obtain ⟨rest, rfl⟩ : d :: ds <+: cs := htake ▸ List.take_prefix _ _
    exact ⟨d, _, rfl, hd⟩
  · rintro ⟨d, ds, rfl, hd⟩
    rw [digitRun, List.takeWhile_cons_of_pos hd]
    exact Nat.succ_ne_zero _

theorem fraction_take (cs : List Char) : Fraction (cs.take (fractionRun cs)) := by
  unfold fractionRun
  split
  · rename_i ds
    split
    · exact .none
    · rename_i hdigits
      exact .some (isDigits_take hdigits)
  · exact .none

theorem take_signRun (cs : List Char) : cs.take (signRun cs) ∈ [[], ['+'], ['-']] := by
  unfold signRun
  split <;> simp

theorem exponent_take (cs : List Char) : Exponent (cs.take (exponentRun cs)) := by
  cases cs with
  | nil => exact .none
  | cons mark cs =>
    rw [exponentRun]
    split
    · rename_i h
      obtain ⟨hmark, hpower⟩ := h
      rw [powerRun] at hpower ⊢
      split at hpower
      · exact absurd rfl hpower
      · rename_i hdigits
        rw [if_neg hdigits, List.take_succ_cons, List.take_add]
        exact .some hmark (take_signRun cs) (isDigits_take hdigits)
    · exact .none

/-- A number begins with digits, and what is measured of it is a numeral. -/
theorem unsigned_take (h : digitRun cs ≠ 0) : Unsigned (cs.take (numberRun cs)) := by
  have htake : cs.take (numberRun cs) = cs.take (digitRun cs) ++
      ((cs.drop (digitRun cs)).take (fractionRun (cs.drop (digitRun cs))) ++
        (cs.drop (digitRun cs + fractionRun (cs.drop (digitRun cs)))).take
          (exponentRun (cs.drop (digitRun cs + fractionRun (cs.drop (digitRun cs)))))) := by
    rw [numberRun, Nat.add_assoc, List.take_add, List.take_add, List.drop_drop]
  rw [htake]
  exact .mk (isDigits_take h) (fraction_take _) (exponent_take _)

/-- The text of a number symbol is a numeral. -/
theorem Symbol.IsCut.numeral {s : Symbol} (h : s.IsCut) (hkind : s.kind = .number) :
    Numeral s.text.toList := by
  obtain ⟨c, cs, more, hm, htext⟩ := h
  rw [hkind] at hm
  rw [htext]
  cases hm with
  | negative hc hdigits =>
    subst hc
    exact .negative (unsigned_take hdigits)
  | number hc =>
    have hdigits : digitRun (c :: cs) ≠ 0 := digitRun_ne_zero_iff.mpr ⟨c, cs, rfl, hc⟩
    have hrun : numberRun (c :: cs) - 1 + 1 = numberRun (c :: cs) := by
      rw [numberRun]
      omega
    have htake : c :: cs.take (numberRun (c :: cs) - 1) = (c :: cs).take (numberRun (c :: cs)) := by
      rw [← List.take_succ_cons, hrun]
    rw [htake]
    exact .plain (unsigned_take hdigits)
  | word _ hword => cases hword ▸ worded _

/-! ## Numerals are measured in full -/

variable {ds rest : List Char}

theorem digitRun_append (h : ∀ d ∈ ds, d.isDigit = true)
    (hrest : ∀ c cs, rest = c :: cs → c.isDigit = false) : digitRun (ds ++ rest) = ds.length :=
  congrArg (fun parts ↦ parts.1.length) (splitDigits_append h hrest)

theorem length_le_digitRun (h : IsDigits ds) (rest : List Char) :
    ds.length ≤ digitRun (ds ++ rest) := by
  rw [digitRun, List.takeWhile_append_of_pos h.2, List.length_append]
  exact Nat.le_add_right _ _

theorem signRun_append {sign : List Char} (hsign : sign ∈ [[], ['+'], ['-']]) (hds : IsDigits ds)
    (rest : List Char) : signRun (sign ++ (ds ++ rest)) = sign.length := by
  simp only [List.mem_cons, List.not_mem_nil, or_false] at hsign
  rcases hsign with rfl | rfl | rfl
  · obtain ⟨d, ds, rfl, hd⟩ := hds.exists_cons
    obtain ⟨hplus, hminus⟩ := ne_sign_of_isDigit hd
    simp [signRun, hplus, hminus]
  · rfl
  · rfl

theorem length_le_exponentRun (h : Exponent cs) (rest : List Char) :
    cs.length ≤ exponentRun (cs ++ rest) := by
  cases h with
  | none => exact Nat.zero_le _
  | @some mark sign ds hmark hsign hds =>
    have hdigits := length_le_digitRun hds rest
    have hlength : 0 < ds.length := List.length_pos_iff.mpr hds.1
    have hpower : powerRun (sign ++ (ds ++ rest)) = sign.length + digitRun (ds ++ rest) := by
      unfold powerRun
      dsimp only
      rw [signRun_append hsign hds, List.drop_left' rfl, if_neg (by omega)]
    rw [List.cons_append, List.append_assoc, exponentRun, hpower, if_pos ⟨hmark, by omega⟩,
      List.length_cons, List.length_append]
    omega

theorem length_le_fractionRun (h : Fraction cs) (rest : List Char) :
    cs.length ≤ fractionRun (cs ++ rest) := by
  cases h with
  | none => exact Nat.zero_le _
  | some hds =>
    have hdigits := length_le_digitRun hds rest
    have hlength := List.length_pos_iff.mpr hds.1
    rw [List.cons_append, fractionRun, if_neg (by omega)]
    exact Nat.succ_le_succ hdigits

theorem fractionRun_append (h : Fraction cs)
    (hrest : ∀ c ds, rest = c :: ds → c.isDigit = false ∧ c ≠ '.') :
    fractionRun (cs ++ rest) = cs.length := by
  cases h with
  | none =>
    rw [List.nil_append, fractionRun.eq_def]
    split
    · exact absurd rfl (hrest _ _ rfl).2
    · rfl
  | @some ds hds =>
    have hrun : digitRun (ds ++ rest) = ds.length :=
      digitRun_append hds.2 fun c cs hcs ↦ (hrest c cs hcs).1
    rw [List.cons_append, fractionRun, hrun, if_neg (mt List.length_eq_zero_iff.mp hds.1),
      List.length_cons]

/-- An exponent keeps the digits of the fraction from going on. Where there is none, they may. -/
theorem length_le_fractionRun_add {fraction exponent tail : List Char} (h : Fraction fraction)
    (h' : Exponent exponent) (htail : tail = fraction ++ (exponent ++ rest)) :
    fraction.length + exponent.length ≤
      fractionRun tail + exponentRun (tail.drop (fractionRun tail)) := by
  subst htail
  cases h' with
  | none => exact Nat.le_add_right_of_le (length_le_fractionRun h rest)
  | @some mark sign ds hmark hsign hds =>
    have hexponent : Exponent (mark :: (sign ++ ds)) := .some hmark hsign hds
    rw [fractionRun_append h, List.drop_left' rfl]
    · exact Nat.add_le_add_left (length_le_exponentRun hexponent rest) _
    · rintro c cs hcs
      obtain ⟨rfl, -⟩ := List.cons.inj hcs
      exact hexponent.not_digit rfl

/-- No numeral at the front of a text is longer than the number that is measured there. -/
theorem length_le_numberRun (h : Unsigned cs) (rest : List Char) :
    cs.length ≤ numberRun (cs ++ rest) := by
  obtain @⟨whole, fraction, exponent, hwhole, hfraction, hexponent⟩ := h
  have htail := length_le_fractionRun_add hfraction hexponent
    (rfl : fraction ++ (exponent ++ rest) = _)
  rw [numberRun, List.append_assoc, List.append_assoc, List.length_append, List.length_append]
  -- What is behind the whole part begins with no digit, unless it is not part of the numeral.
  by_cases hnil : fraction ++ exponent = []
  · obtain ⟨rfl, rfl⟩ := List.append_eq_nil_iff.mp hnil
    have hdigits := length_le_digitRun hwhole rest
    simp only [List.nil_append, List.length_nil]
    omega
  · have hwholeRun : digitRun (whole ++ (fraction ++ (exponent ++ rest))) = whole.length := by
      refine digitRun_append hwhole.2 fun c cs hcs ↦ ?_
      cases hfraction with
      | some =>
        obtain ⟨rfl, -⟩ := List.cons.inj hcs
        rfl
      | none =>
        obtain ⟨d, ds, hds⟩ := List.exists_cons_of_ne_nil hnil
        rw [List.nil_append] at hds hcs
        rw [hds] at hcs
        obtain ⟨rfl, -⟩ := List.cons.inj hcs
        exact (hexponent.not_digit hds).1
    rw [hwholeRun, List.drop_left' rfl, ← List.drop_drop, List.drop_left' rfl]
    omega

theorem numberRun_eq_length (h : Unsigned cs) : numberRun cs = cs.length := by
  have hle := length_le_numberRun h []
  rw [List.append_nil] at hle
  exact Nat.le_antisymm (numberRun_le cs) hle

theorem measure_of_isDigit {c : Char} (h : c.isDigit = true) (cs : List Char) :
    measure c cs = (.number, numberRun (c :: cs) - 1) := by
  have hne : ∀ {d : Char}, d.isDigit = false → c ≠ d := by
    rintro d hd rfl
    exact Bool.false_ne_true (hd.symm.trans h)
  have horder : ¬ (c = '<' ∨ c = '>') := not_or.mpr ⟨hne rfl, hne rfl⟩
  have hquote : ¬ (c = '"' ∨ c = '\'') := not_or.mpr ⟨hne rfl, hne rfl⟩
  rw [measure, if_neg (hne rfl), if_neg (hne rfl), if_neg (hne rfl), if_neg (hne rfl),
    if_neg (hne rfl), if_neg (hne rfl), if_neg horder, if_neg hquote, if_neg (hne rfl), if_pos h]

/-- A numeral is measured as one number, from its first character on. -/
theorem exists_measure_of_numeral (h : Numeral cs) :
    ∃ c ds, cs = c :: ds ∧ GoesOn c ∧ Text.isBlank c = false ∧
      measure c ds = (.number, ds.length) := by
  cases h with
  | plain h =>
    have hrun := numberRun_eq_length h
    obtain ⟨d, ds, rfl, hd⟩ := h.exists_cons
    refine ⟨d, ds, rfl, goesOn_of_isDigit hd, Text.isBlank_eq_false_of_isDigit hd, ?_⟩
    rw [measure_of_isDigit hd, hrun, List.length_cons, Nat.add_sub_cancel]
  | @negative ds h =>
    have hrun := numberRun_eq_length h
    have hdigits : digitRun ds ≠ 0 := digitRun_ne_zero_iff.mpr h.exists_cons
    refine ⟨'-', ds, rfl, by decide, by decide, ?_⟩
    change (if digitRun ds = 0 then _ else _) = _
    rw [if_neg hdigits, hrun]

end ItemSql.Token
