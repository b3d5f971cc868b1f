import ItemSql.Proofs.Json.Outline

/-!
# Strings and numbers as lexemes

A string of the grammar is one lexeme, and its text is what the string stands for. A number of the
grammar is one lexeme too, with all of its parts, if what stands behind it does not go on a number:
`Halts` says so.
-/

namespace ItemSql.Json

open Decimal (IsDigits)
open Text (Glyph)

variable {w cs : List Char} {rest : List Glyph} {n : Numeral}

/-! ## Pieces of strings -/

/-- A letter behind a backslash is a piece of two glyphs. -/
theorem body_unescape {letter c : Char} (h : (letter, c) ∈ escapes) :
    body (.char '\\' :: .char letter :: rest) = (body rest).cons (.char c) 2 := by
  have hletters : ∀ e ∈ escapes, e.1 ≠ 'u' ∧ unescape? e.1 = some e.2 := by decide
  have hletter : letter ≠ 'u' ∧ unescape? letter = some c := hletters _ h
  rw [body.eq_def]
  simp [hletter.1, hletter.2]

theorem body_unit {a b c d : Char} {unit : Nat} (h : codeUnit? a b c d = some unit) :
    body (.char '\\' :: .char 'u' :: .char a :: .char b :: .char c :: .char d :: rest) =
      (body rest).cons (.unit unit) 6 := by
  rw [body, h]

theorem body_char {c : Char} (hquote : c ≠ '"') (hbackslash : c ≠ '\\')
    (hcontrol : ¬ c.toNat < 0x20) :
    body (.char c :: rest) = (body rest).cons (.char c) 1 := by
  rw [body.eq_def]
  simp [hbackslash, hcontrol]

theorem Piece.leads_iff {n : Nat} : Piece.leads n = true ↔ 0xD800 ≤ n ∧ n < 0xDC00 := by
  rw [Piece.leads, Bool.and_eq_true, decide_eq_true_iff, decide_eq_true_iff]

theorem Piece.trails_iff {n : Nat} : Piece.trails n = true ↔ 0xDC00 ≤ n ∧ n < 0xE000 := by
  rw [Piece.trails, Bool.and_eq_true, decide_eq_true_iff, decide_eq_true_iff]

/-- A code unit that is no surrogate stands for itself whatever follows. -/
theorem spell?_unit {unit : Nat} (h : unit < 0xD800 ∨ 0xE000 ≤ unit) (pieces : List Piece) :
    Piece.spell? (.unit unit :: pieces) =
      (Piece.spell? pieces).map (Char.ofNat unit :: ·) := by
  have hleads : Piece.leads unit = false := by
    rw [Bool.eq_false_iff, Ne, Piece.leads_iff]
    omega
  have htrails : Piece.trails unit = false := by
    rw [Bool.eq_false_iff, Ne, Piece.trails_iff]
    omega
  rw [Piece.spell?.eq_def]
  split
  · rename_i heq
    cases heq
  · rename_i heq
    cases heq
  · rename_i lead trail pieces' heq
    obtain ⟨hlead, rfl⟩ := List.cons.inj heq
    obtain rfl := Piece.unit.inj hlead
    rw [hleads, htrails]
    rfl
  · rename_i heq
    obtain ⟨hunit, rfl⟩ := List.cons.inj heq
    obtain rfl := Piece.unit.inj hunit
    rw [hleads, htrails]
    rfl
  · rename_i heq
    cases heq

theorem spell?_pair {lead trail : Nat} (hleads : 0xD800 ≤ lead ∧ lead < 0xDC00)
    (htrails : 0xDC00 ≤ trail ∧ trail < 0xE000) (pieces : List Piece) :
    Piece.spell? (.unit lead :: .unit trail :: pieces) =
      (Piece.spell? pieces).map (Piece.join lead trail :: ·) := by
  rw [Piece.spell?, if_pos (Piece.leads_iff.mpr hleads), if_pos (Piece.trails_iff.mpr htrails)]

/-! ## Strings -/

/-- A string is found up to its closing quote, cut into its pieces. -/
theorem Cutting.body {w : List Glyph} {pieces : List Piece} (h : Cutting w pieces)
    (rest : List Glyph) : body (w ++ .char '"' :: rest) = ⟨pieces, .ok (w.length + 1)⟩ := by
  induction h with
  | nil => rfl
  | plain hquote hbackslash hcontrol _ ih =>
    rw [List.cons_append, body_char hquote hbackslash (by omega), ih]
    exact congrArg (Body.mk _) (congrArg Except.ok (Nat.add_comm 1 _))
  | stray _ ih =>
    rw [List.cons_append, Json.body, ih]
    exact congrArg (Body.mk _) (congrArg Except.ok (Nat.add_comm 1 _))
  | escape hletter _ ih =>
    rw [List.cons_append, List.cons_append, body_unescape hletter, ih]
    exact congrArg (Body.mk _) (congrArg Except.ok (Nat.add_comm 2 _))
  | unit hunit _ ih =>
    simp only [List.cons_append]
    rw [body_unit hunit, ih]
    exact congrArg (Body.mk _) (congrArg Except.ok (Nat.add_comm 6 _))

/-- The pieces of a string that has a text spell the text. -/
theorem StringText.exists_cutting (h : StringText w cs) :
    ∃ pieces, Cutting (w.map .char) pieces ∧ Piece.spell? pieces = some cs := by
  induction h with
  | nil => exact ⟨[], .nil, rfl⟩
  | plain hquote hbackslash hcontrol _ ih =>
    obtain ⟨pieces, hcut, hspell⟩ := ih
    exact ⟨_, .plain hquote hbackslash hcontrol hcut, by rw [Piece.spell?, hspell]; rfl⟩
  | escape hletter _ ih =>
    obtain ⟨pieces, hcut, hspell⟩ := ih
    exact ⟨_, .escape hletter hcut, by rw [Piece.spell?, hspell]; rfl⟩
  | unit hunit hplain _ ih =>
    obtain ⟨pieces, hcut, hspell⟩ := ih
    exact ⟨_, .unit hunit hcut, by rw [spell?_unit hplain, hspell]; rfl⟩
  | pair hlead htrail hleads htrails _ ih =>
    obtain ⟨pieces, hcut, hspell⟩ := ih
    exact ⟨_, .unit hlead (.unit htrail hcut), by rw [spell?_pair hleads htrails, hspell]; rfl⟩

/-- A code unit that is no surrogate is a character of the string, if the others are. -/
theorem Cutting.exists_stringText_unit {w : List Glyph} {n : Nat} {pieces : List Piece}
    {cs : List Char} (h : Cutting w (.unit n :: pieces)) (hleads : ¬ Piece.leads n = true)
    (htrails : ¬ Piece.trails n = true) (hspell : Piece.spell? (.unit n :: pieces) = some cs)
    (hpieces : ∀ {w : List Glyph} {cs : List Char}, Cutting w pieces →
      Piece.spell? pieces = some cs → ∃ v : List Char, StringText v cs ∧ v.map .char = w) :
    ∃ v : List Char, StringText v cs ∧ v.map .char = w := by
  have hplain : n < 0xD800 ∨ 0xE000 ≤ n := by
    rw [Piece.leads_iff] at hleads
    rw [Piece.trails_iff] at htrails
    omega
  rw [spell?_unit hplain] at hspell
  obtain ⟨cs, hcs, rfl⟩ := Option.map_eq_some_iff.mp hspell
  obtain _ | _ | _ | _ | ⟨hunit, h⟩ := h
  obtain ⟨v, hv, rfl⟩ := hpieces h hcs
  exact ⟨_, .unit hunit hplain hv, rfl⟩

/-- Pieces that spell a text are those of a string that has it. -/
theorem Cutting.exists_stringText {w : List Glyph} {pieces : List Piece} {cs : List Char}
    (h : Cutting w pieces) (hspell : Piece.spell? pieces = some cs) :
    ∃ v : List Char, StringText v cs ∧ v.map .char = w := by
  induction pieces using Piece.spell?.induct generalizing w cs with
  | case1 =>
    cases h
    obtain rfl := Option.some.inj hspell
    exact ⟨[], .nil, rfl⟩
  | case2 c rest ih =>
    rw [Piece.spell?] at hspell
    obtain ⟨cs, hcs, rfl⟩ := Option.map_eq_some_iff.mp hspell
    cases h with
    | plain hquote hbackslash hcontrol h =>
      obtain ⟨v, hv, rfl⟩ := ih h hcs
      exact ⟨_, .plain hquote hbackslash hcontrol hv, rfl⟩
    | escape hletter h =>
      obtain ⟨v, hv, rfl⟩ := ih h hcs
      exact ⟨_, .escape hletter hv, rfl⟩
  | case3 lead trail rest hleads htrails ih =>
    rw [Piece.leads_iff] at hleads
    rw [Piece.trails_iff] at htrails
    rw [spell?_pair hleads htrails] at hspell
    obtain ⟨cs, hcs, rfl⟩ := Option.map_eq_some_iff.mp hspell
    obtain _ | _ | _ | _ | ⟨hlead, h⟩ := h
    obtain _ | _ | _ | _ | ⟨htrail, h⟩ := h
    obtain ⟨v, hv, rfl⟩ := ih h hcs
    exact ⟨_, .pair hlead htrail hleads htrails hv, rfl⟩
  | case4 lead trail rest hleads htrails =>
    rw [Piece.spell?, if_pos hleads, if_neg htrails] at hspell
    cases hspell
  | case5 lead trail rest hleads htrails =>
    rw [Piece.spell?, if_neg hleads, if_pos htrails] at hspell
    cases hspell
  | case6 n trail rest hleads htrails ih =>
    exact h.exists_stringText_unit hleads htrails hspell ih
  | case7 n rest hrest hsurrogate =>
    rw [Piece.spell?, if_pos hsurrogate] at hspell
    · cases hspell
    · exact hrest
  | case8 n rest hrest hsurrogate ih =>
    obtain ⟨hleads, htrails⟩ := not_or.mp fun hor ↦ hsurrogate (Bool.or_eq_true_iff.mpr hor)
    exact h.exists_stringText_unit hleads htrails hspell ih
  | case9 => cases hspell

/-- What stands between quotes is one lexeme with the closing quote, and it has the text if there is
one. -/
theorem Quotes.stringLexeme {w : List Glyph} {text : Except Fault String} (h : Quotes w text)
    (rest : List Glyph) :
    stringLexeme (w ++ .char '"' :: rest) = (.string text, w.length + 1) := by
  cases h with
  | text h =>
    obtain ⟨pieces, hcut, hspell⟩ := h.exists_cutting
    simp only [Json.stringLexeme, hcut.body, hspell]
  | @noText _ pieces hcut hno =>
    have hspell : Piece.spell? pieces = none := by
      refine Option.eq_none_iff_forall_not_mem.mpr fun cs hcs ↦ ?_
      obtain ⟨v, hv, hw⟩ := hcut.exists_stringText hcs
      exact hno v cs hv hw
    simp only [Json.stringLexeme, hcut.body, hspell]

/-! ## Numbers -/

/-- What stands here does not go on a number. -/
structure Halts (rest : List Glyph) : Prop where
  noDigits : frontDigits rest = []
  noFraction : fractionPart rest = .ok none
  noExponent : exponentPart rest = .ok (none, 0)

theorem Halts.nil : Halts [] :=
  ⟨rfl, rfl, rfl⟩

theorem Halts.blank {c : Char} (h : c ∈ [' ', '\t', '\n', '\r']) (rest : List Glyph) :
    Halts (.char c :: rest) := by
  simp only [List.mem_cons, List.not_mem_nil, or_false] at h
  rcases h with rfl | rfl | rfl | rfl <;> exact ⟨rfl, rfl, rfl⟩

theorem frontDigits_append {ds : List Char} (hds : ∀ d ∈ ds, d.isDigit = true)
    (hrest : frontDigits rest = []) :
    frontDigits (ds.map .char ++ rest) = ds.map digitValue := by
  induction ds with
  | nil => exact hrest
  | cons d ds ih =>
    rw [List.map_cons, List.cons_append, frontDigits, if_pos (hds d List.mem_cons_self),
      ih fun e he ↦ hds e (List.mem_cons_of_mem _ he)]
    rfl

theorem digitValue_ne_zero {d : Char} (hd : d.isDigit = true) (hzero : d ≠ '0') :
    digitValue d ≠ 0 := by
  intro h
  obtain ⟨hlow, -⟩ : 48 ≤ d.toNat ∧ d.toNat ≤ 57 := Char.isDigit_iff_toNat.mp hd
  have hvalue : d.toNat = 48 := Nat.le_antisymm (Nat.sub_eq_zero_iff_le.mp h) hlow
  exact hzero (Char.toNat_inj.mp hvalue)

theorem WholeText.wholePart (h : WholeText w) (hrest : frontDigits rest = []) :
    wholePart (w.map .char ++ rest) = .ok (w.map digitValue) := by
  cases h with
  | zero =>
    rw [Json.wholePart, frontDigits_append (List.forall_mem_singleton.mpr rfl) hrest]
    rfl
  | @digits d ds hzero hds =>
    have hvalue := digitValue_ne_zero (hds.2 d List.mem_cons_self) hzero
    rw [Json.wholePart, frontDigits_append hds.2 hrest, List.map_cons]
    cases hcase : digitValue d with
    | zero => exact absurd hcase hvalue
    | succ m => rfl

theorem FractionText.fractionPart {fraction? : Option (List Nat)} (h : FractionText w fraction?)
    (hdigits : frontDigits rest = []) (hrest : Json.fractionPart rest = .ok Option.none) :
    Json.fractionPart (w.map .char ++ rest) = .ok fraction? := by
  cases h with
  | none => exact hrest
  | @some ds hds =>
    obtain ⟨d, ds', rfl, -⟩ := hds.exists_cons
    rw [List.map_cons, List.cons_append, Json.fractionPart, frontDigits_append hds.2 hdigits]
    rfl

theorem exponentSign_append {sign : List Char} {d : Char} (hsign : sign ∈ [[], ['+'], ['-']])
    (hd : d.isDigit = true) (rest : List Glyph) :
    exponentSign (sign.map .char ++ .char d :: rest) = (decide (sign = ['-']), sign.length) := by
  obtain ⟨hplus, hminus⟩ := Decimal.ne_sign_of_isDigit hd
  simp only [List.mem_cons, List.not_mem_nil, or_false] at hsign
  rcases hsign with rfl | rfl | rfl
  · simp [exponentSign, hplus, hminus]
  · rfl
  · rfl

theorem foldl_digitValue (cs : List Char) (v : Nat) :
    (cs.map digitValue).foldl (fun v d ↦ 10 * v + d) v = Nat.ofDigitChars 10 cs v := by
  rw [List.foldl_map]
  rfl

theorem ExponentText.exponentPart {exponent? : Option Int} (h : ExponentText w exponent?)
    (hrest : Halts rest) : Json.exponentPart (w.map .char ++ rest) = .ok (exponent?, w.length) := by
  cases h with
  | none => exact hrest.noExponent
  | @some mark sign ds hmark hsign hds =>
    obtain ⟨d, ds', rfl, hd⟩ := hds.exists_cons
    have hsigned : exponentSign ((sign ++ d :: ds').map .char ++ rest) =
        (decide (sign = ['-']), sign.length) := by
      rw [List.map_append, List.append_assoc]
      exact exponentSign_append hsign hd _
    have hdrop : ((sign ++ d :: ds').map Glyph.char ++ rest).drop sign.length =
        (d :: ds').map .char ++ rest := by
      rw [List.map_append, List.append_assoc]
      exact List.drop_left' (List.length_map _)
    have hdigits : frontDigits ((d :: ds').map .char ++ rest) =
        digitValue d :: ds'.map digitValue := frontDigits_append hds.2 hrest.noDigits
    have hvalue := foldl_digitValue (d :: ds') 0
    have hlength : 1 + sign.length + ((d :: ds').map digitValue).length =
        (mark :: (sign ++ d :: ds')).length := by
      simp only [List.length_map, List.length_cons, List.length_append]
      omega
    rw [List.map_cons] at hvalue hlength
    rw [List.map_cons, List.cons_append, Json.exponentPart, if_pos hmark]
    simp only [hsigned, hdrop, hdigits, hvalue, hlength, decide_eq_true_eq]

/-- What stands behind the digits before the point is no digit. -/
theorem FractionText.noDigits {fraction? : Option (List Nat)} (h : FractionText w fraction?)
    (hrest : frontDigits rest = []) : frontDigits (w.map .char ++ rest) = [] := by
  cases h with
  | none => exact hrest
  | some hds => rfl

theorem ExponentText.noDigits {exponent? : Option Int} (h : ExponentText w exponent?)
    (hrest : Halts rest) : frontDigits (w.map .char ++ rest) = [] ∧
      Json.fractionPart (w.map .char ++ rest) = .ok Option.none := by
  cases h with
  | none => exact ⟨hrest.noDigits, hrest.noFraction⟩
  | some hmark => rcases hmark with rfl | rfl <;> exact ⟨rfl, rfl⟩

theorem UnsignedText.numeral {negative : Bool} (h : UnsignedText negative w n)
    (hrest : Halts rest) :
    Json.numeral negative (w.map .char ++ rest) = .ok (n, w.length) := by
  cases h with
  | @mk whole fraction exponent fraction? exponent? hwhole hfraction hexponent =>
    obtain ⟨hdigits, hpoint⟩ := hexponent.noDigits hrest
    have hsize : (fraction?.map fun ds ↦ ds.length + 1).getD 0 = fraction.length := by
      cases hfraction with
      | none => rfl
      | some hds => exact congrArg (· + 1) (List.length_map _)
    have hdrop (w : List Char) (gs : List Glyph) {k : Nat} (hk : k = w.length) :
        (w.map Glyph.char ++ gs).drop k = gs := List.drop_left' (by rw [List.length_map, hk])
    have hw := hwhole.wholePart (hfraction.noDigits hdigits)
    have hf := hfraction.fractionPart hdigits hpoint
    have he := hexponent.exponentPart hrest
    rw [List.map_append, List.map_append, List.append_assoc, List.append_assoc, Json.numeral, hw]
    simp only [Bind.bind, Except.bind, hf, hsize,
      hdrop _ _ rfl, he, List.length_map, List.length_append, Pure.pure, Except.pure, Nat.add_assoc]

/-! ## Strings as they are written -/

theorem hexValue?_hexDigit : ∀ n < 16, Text.hexValue? (hexDigit n) = some n := by
  decide

theorem codeUnit?_hexDigit {n : Nat} (h : n < 0x20) :
    codeUnit? '0' '0' (hexDigit (n / 16)) (hexDigit (n % 16)) = some n := by
  have hvalue : ((0 * 16 + 0) * 16 + n / 16) * 16 + n % 16 = n := by omega
  rw [codeUnit?, hexValue?_hexDigit (n / 16) (by omega), hexValue?_hexDigit (n % 16) (by omega)]
  exact congrArg some hvalue

/-- A character that is escaped stands for itself. -/
theorem StringText.escaped (c : Char) (h : StringText w cs) :
    StringText (Json.escape c ++ w) (c :: cs) := by
  unfold Json.escape
  split_ifs with hquote hbackslash hb ht hn hf hr hcontrol
  · subst hquote
    exact .escape (by decide) h
  · subst hbackslash
    exact .escape (by decide) h
  · subst hb
    exact .escape (by decide) h
  · subst ht
    exact .escape (by decide) h
  · subst hn
    exact .escape (by decide) h
  · subst hf
    exact .escape (by decide) h
  · subst hr
    exact .escape (by decide) h
  · have hunit := StringText.unit (codeUnit?_hexDigit hcontrol) (.inl (by omega)) h
    rwa [Char.ofNat_toNat] at hunit
  · exact .plain hquote hbackslash (by omega) h

theorem stringText_flatMap_escape (cs : List Char) : StringText (cs.flatMap escape) cs := by
  induction cs with
  | nil => exact .nil
  | cons c cs ih => exact ih.escaped c

/-! ## Integers as they are written -/

/-- The parts of an integer as it is written. -/
def Numeral.ofInt (n : Int) : Numeral :=
  ⟨n < 0, (Decimal.digits n.natAbs).map digitValue, none, none⟩

theorem digitValue_digitChar : ∀ n < 10, digitValue (Nat.digitChar n) = n := by
  decide

/-- The digits of a number that is not zero do not begin with a zero. -/
theorem exists_digits_eq_cons {n : Nat} (h : n ≠ 0) :
    ∃ d ds, Decimal.digits n = d :: ds ∧ digitValue d ≠ 0 := by
  induction n using Nat.strongRecOn with
  | ind n ih =>
    by_cases hn : n < 10
    · refine ⟨Nat.digitChar n, [], Nat.toDigits_of_lt_base hn, ?_⟩
      rw [digitValue_digitChar n hn]
      exact h
    · obtain ⟨d, ds, hds, hd⟩ := ih (n / 10) (by omega) (by omega)
      have hsplit := Nat.toDigits_append_toDigits (b := 10) (n := n / 10) (d := n % 10)
        (by decide) (by omega) (by omega)
      rw [Nat.div_add_mod] at hsplit
      refine ⟨d, ds ++ Nat.toDigits 10 (n % 10), ?_, hd⟩
      rw [Decimal.digits, ← hsplit, ← List.cons_append, ← hds]
      rfl

theorem digits_eq_zero_or (n : Nat) :
    Decimal.digits n = ['0'] ∨ ∃ d ds, Decimal.digits n = d :: ds ∧ digitValue d ≠ 0 := by
  by_cases h : n = 0
  · subst h
    exact .inl rfl
  · exact .inr (exists_digits_eq_cons h)

theorem wholeText_digits (n : Nat) : WholeText (Decimal.digits n) := by
  have hdigits := Decimal.isDigits_digits n
  rcases digits_eq_zero_or n with h | ⟨d, ds, h, hd⟩
  · exact h ▸ .zero
  · rw [h] at hdigits ⊢
    refine .digits ?_ hdigits
    rintro rfl
    exact hd rfl

theorem unsignedText_digits (negative : Bool) (n : Nat) :
    UnsignedText negative (Decimal.digits n)
      ⟨negative, (Decimal.digits n).map digitValue, none, none⟩ := by
  have h : UnsignedText negative (Decimal.digits n ++ ([] ++ [])) _ :=
    .mk (wholeText_digits n) .none .none
  rwa [List.append_nil, List.append_nil] at h

theorem numberText_intChars (n : Int) : NumberText (Decimal.intChars n) (.ofInt n) := by
  cases n with
  | ofNat n => exact .plain (unsignedText_digits false n)
  | negSucc n =>
    have hnegative : decide (Int.negSucc n < 0) = true := decide_eq_true (Int.negSucc_lt_zero n)
    rw [Numeral.ofInt, hnegative]
    exact .negative (unsignedText_digits true (n + 1))

theorem wholeValue_ofInt (n : Int) : (Numeral.ofInt n).wholeValue = n.natAbs := by
  rw [Numeral.wholeValue, Numeral.ofInt, foldl_digitValue, Decimal.digits,
    Nat.ofDigitChars_toDigits (by decide) (by decide)]

/-- The least and the greatest integer that is read as one: what fits in 64 bits, with a sign or
without. -/
def IsWord (n : Int) : Prop :=
  -9223372036854775808 ≤ n ∧ n < 18446744073709551616

theorem value?_ofInt {n : Int} (h : IsWord n) : (Numeral.ofInt n).value? = some (.integer n) := by
  obtain ⟨hlow, hhigh⟩ := h
  have hcases : (Numeral.ofInt n).integer? =
      if decide (n < 0) = true then
        if n.natAbs ≠ 0 ∧ n.natAbs ≤ 2 ^ 63 then some (-(n.natAbs : Int)) else none
      else if n.natAbs < 2 ^ 64 then some (n.natAbs : Int) else none := by
    rw [Numeral.integer?, wholeValue_ofInt]
    rfl
  have hinteger : (Numeral.ofInt n).integer? = some n := by
    rw [hcases]
    by_cases hn : n < 0
    · have hsign : -(n.natAbs : Int) = n := by omega
      rw [if_pos (decide_eq_true hn), if_pos (by omega), hsign]
    · have hsign : (n.natAbs : Int) = n := by omega
      rw [if_neg (mt of_decide_eq_true hn), if_pos (by omega), hsign]
  rw [Numeral.value?, hinteger]

theorem isWord_toInt64 (n : Int64) : IsWord n.toInt :=
  ⟨n.le_toInt, by have := n.toInt_lt; omega⟩

theorem isWord_toInt32 (n : Int32) : IsWord n.toInt :=
  ⟨by have := n.le_toInt; omega, by have := n.toInt_lt; omega⟩

end ItemSql.Json
