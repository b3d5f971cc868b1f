import ItemSql.Proofs.Json.Reading
import ItemSql.Proofs.Results

/-!
# Lexemes come from their texts

A lexeme that is no cut was read from a text of the grammar: a mark, a word, a number, or a string
whose pieces can be told. So if there is no cut among the lexemes of a text, the text is theirs,
with white space between them and nowhere else (`lexed_lexemesFrom`).

A number or a string is taken apart as its reader takes it apart. For each part there is one lemma,
and it says how much of the text the part is and that the rest stands behind it. Where a lexeme
stands among others, the text is parted before and behind it (`Lexed.split`).
-/

namespace ItemSql.Json

open Text (Glyph)

/-! ## Strings -/

/-- A string that is closed behind these pieces, and how many glyphs there are with the quote. -/
inductive Closed : List Glyph → List Piece → Nat → Prop
  | mk {w : List Glyph} {pieces : List Piece} (h : Cutting w pieces) (rest : List Glyph) :
      Closed (w ++ .char '"' :: rest) pieces (w.length + 1)

theorem Body.exists_of_cons_eq {b : Body} {piece : Piece} {pieces : List Piece} {k n : Nat}
    (h : b.cons piece k = ⟨pieces, .ok n⟩) :
    ∃ ps m, b = ⟨ps, .ok m⟩ ∧ pieces = piece :: ps ∧ n = k + m := by
  obtain ⟨ps, ending⟩ := b
  cases ending with
  | error f => cases h
  | ok m =>
    obtain ⟨rfl, hn⟩ := Body.mk.inj h
    exact ⟨ps, m, rfl, rfl, (Except.ok.inj hn).symm⟩

theorem mem_escapes_of_unescape? {letter c : Char} (h : unescape? letter = some c) :
    (letter, c) ∈ escapes := by
  unfold unescape? at h
  split_ifs at h with hself hb hf hn hr ht
  · obtain rfl := Option.some.inj h
    rcases hself with rfl | rfl | rfl <;> decide
  all_goals
    obtain rfl := Option.some.inj h
    subst letter
    decide

theorem closed_of_body {gs : List Glyph} {pieces : List Piece} {n : Nat}
    (h : body gs = ⟨pieces, .ok n⟩) : Closed gs pieces n := by
  fun_induction body gs generalizing pieces n with
  | case1 | case3 | case5 | case6 | case8 | case9 | case10 => cases h
  | case2 rest =>
    obtain ⟨rfl, hn⟩ := Body.mk.inj h
    obtain rfl := Except.ok.inj hn
    exact .mk .nil rest
  | case4 a b c d rest unit hunit ih =>
    obtain ⟨ps, m, hbody, rfl, rfl⟩ := Body.exists_of_cons_eq h
    obtain ⟨hcut, rest⟩ := ih hbody
    rw [Nat.add_comm]
    exact .mk (.unit hunit hcut) rest
  | case7 letter rest _ _ c hletter ih =>
    obtain ⟨ps, m, hbody, rfl, rfl⟩ := Body.exists_of_cons_eq h
    obtain ⟨hcut, rest⟩ := ih hbody
    rw [Nat.add_comm]
    exact .mk (.escape (mem_escapes_of_unescape? hletter) hcut) rest
  | case11 c rest hquote hend _ _ hchar hstray hcontrol ih =>
    obtain ⟨ps, m, hbody, rfl, rfl⟩ := Body.exists_of_cons_eq h
    have hbackslash : c ≠ '\\' := by
      intro hc
      match rest with
      | [] => exact hend rfl hc
      | .char c' :: rest => exact hchar c' rest rfl hc
      | .stray run :: rest => exact hstray run rest rfl hc
    obtain ⟨hcut, rest⟩ := ih hbody
    rw [Nat.add_comm]
    exact .mk (.plain hquote hbackslash (Nat.le_of_not_lt hcontrol) hcut) rest
  | case12 run rest ih =>
    obtain ⟨ps, m, hbody, rfl, rfl⟩ := Body.exists_of_cons_eq h
    obtain ⟨hcut, rest⟩ := ih hbody
    rw [Nat.add_comm]
    exact .mk (.stray hcut) rest

/-- A string is cut into its pieces in one way. -/
theorem Cutting.unique {w : List Glyph} {pieces pieces' : List Piece} (h : Cutting w pieces)
    (h' : Cutting w pieces') : pieces = pieces' :=
  (Body.mk.inj ((h.body []).symm.trans (h'.body []))).1

theorem exists_quotes {gs : List Glyph} {l : Lexeme} {k : Nat} (h : stringLexeme gs = (l, k))
    (hcut : ∀ c, l ≠ .cut c) : ∃ w text, l = .string text ∧ Quotes w text ∧
      gs = w ++ .char '"' :: gs.drop k := by
  unfold stringLexeme at h
  dsimp only at h
  cases hbody : body gs with
  | mk pieces ending =>
  rw [hbody] at h
  cases ending with
  | error f =>
    obtain ⟨rfl, -⟩ := Prod.mk.inj h
    exact absurd rfl (hcut _)
  | ok m =>
    obtain ⟨rfl, rfl⟩ := Prod.mk.inj h
    obtain @⟨w, _, hpieces, rest⟩ := closed_of_body hbody
    have hdrop : (w ++ .char '"' :: rest).drop (w.length + 1) = rest := by
      rw [List.append_cons]
      exact List.drop_left' (by simp)
    refine ⟨w, _, rfl, ?_, by rw [hdrop]⟩
    dsimp only
    cases hspell : Piece.spell? pieces with
    | some cs =>
      obtain ⟨v, hv, rfl⟩ := hpieces.exists_stringText hspell
      exact .text hv
    | none =>
      refine .noText hpieces fun v cs hv hw ↦ ?_
      subst hw
      obtain ⟨pieces', hpieces', hspell'⟩ := hv.exists_cutting
      rw [hpieces'.unique hpieces, hspell] at hspell'
      cases hspell'

/-! ## Numbers -/

variable {gs : List Glyph} {n : Numeral}

/-- The digits at the front are those of a text. -/
theorem exists_eq_append_of_frontDigits (gs : List Glyph) :
    ∃ (v : List Char) (rest : List Glyph), gs = v.map .char ++ rest ∧
      (∀ c ∈ v, c.isDigit = true) ∧ frontDigits gs = v.map digitValue := by
  fun_induction frontDigits gs with
  | case1 c rest hdigit ih =>
    obtain ⟨v, rest, rfl, hv, hdigits⟩ := ih
    exact ⟨c :: v, rest, rfl, List.forall_mem_cons.mpr ⟨hdigit, hv⟩, by
      rw [List.map_cons, ← hdigits]; rfl⟩
  | case2 | case3 => exact ⟨[], _, rfl, List.forall_mem_nil _, rfl⟩

theorem exists_wholeText {ds : List Nat} (h : wholePart gs = .ok ds) :
    ∃ (v : List Char) (rest : List Glyph), gs = v.map .char ++ rest ∧ WholeText v ∧
      ds = v.map digitValue := by
  obtain ⟨v, rest, hgs, hv, hdigits⟩ := exists_eq_append_of_frontDigits gs
  refine ⟨v, rest, hgs, ?_⟩
  rw [wholePart, hdigits] at h
  cases v with
  | nil => cases h
  | cons d v =>
    by_cases hzero : d = '0'
    · subst hzero
      cases v with
      | nil => exact ⟨.zero, (Except.ok.inj h).symm⟩
      | cons e v => cases h
    · obtain ⟨k, hk⟩ :=
        Nat.exists_eq_add_one_of_ne_zero (digitValue_ne_zero (hv d List.mem_cons_self) hzero)
      rw [List.map_cons, hk] at h
      rw [List.map_cons, hk]
      exact ⟨.digits hzero ⟨List.cons_ne_nil d v, hv⟩, (Except.ok.inj h).symm⟩

theorem exists_fractionText {fraction? : Option (List Nat)}
    (h : fractionPart gs = .ok fraction?) :
    ∃ (v : List Char) (rest : List Glyph), gs = v.map .char ++ rest ∧ FractionText v fraction? ∧
      (fraction?.map fun ds ↦ ds.length + 1).getD 0 = v.length := by
  unfold fractionPart at h
  split at h
  · rename_i rest
    obtain ⟨v, rest, rfl, hv, hdigits⟩ := exists_eq_append_of_frontDigits rest
    rw [hdigits] at h
    cases v with
    | nil => cases h
    | cons d v =>
      obtain rfl := Except.ok.inj h
      refine ⟨'.' :: d :: v, rest, rfl, .some ⟨List.cons_ne_nil d v, hv⟩, ?_⟩
      exact congrArg (· + 1) (List.length_map _)
  · obtain rfl := Except.ok.inj h
    exact ⟨[], gs, rfl, .none, rfl⟩

theorem exists_sign (gs : List Glyph) :
    ∃ sign ∈ [[], ['+'], ['-']], gs = sign.map .char ++ gs.drop sign.length ∧
      exponentSign gs = (decide (sign = ['-']), sign.length) := by
  unfold exponentSign
  split
  · exact ⟨['+'], by decide, rfl, rfl⟩
  · exact ⟨['-'], by decide, rfl, rfl⟩
  · exact ⟨[], by decide, rfl, rfl⟩

theorem exists_exponentText {exponent? : Option Int} {size : Nat}
    (h : exponentPart gs = .ok (exponent?, size)) :
    ∃ (v : List Char) (rest : List Glyph), gs = v.map .char ++ rest ∧ ExponentText v exponent? ∧
      size = v.length := by
  have hnone (h : (Except.ok (none, 0) : Except Cut (Option Int × Nat)) = .ok (exponent?, size)) :
      ∃ (v : List Char) (rest : List Glyph), gs = v.map .char ++ rest ∧ ExponentText v exponent? ∧
        size = v.length := by
    obtain ⟨rfl, rfl⟩ := Prod.mk.inj (Except.ok.inj h)
    exact ⟨[], gs, rfl, .none, rfl⟩
  unfold exponentPart at h
  split at h
  · rename_i mark rest
    split_ifs at h with hmark
    · obtain ⟨sign, hsign, hrest, hexponent⟩ := exists_sign rest
      rw [hexponent] at h
      dsimp only at h
      obtain ⟨v, rest', hgs, hv, hdigits⟩ :=
        exists_eq_append_of_frontDigits (rest.drop sign.length)
      rw [hdigits] at h
      cases v with
      | nil => cases h
      | cons d v =>
        obtain ⟨rfl, rfl⟩ := Prod.mk.inj (Except.ok.inj h)
        refine ⟨mark :: (sign ++ d :: v), rest', ?_, ?_, ?_⟩
        · rw [List.map_cons, List.map_append, List.cons_append, List.append_assoc, ← hgs, ← hrest]
        · simp only [foldl_digitValue, decide_eq_true_eq]
          exact .some hmark hsign ⟨List.cons_ne_nil d v, hv⟩
        · simp only [List.length_cons, List.length_append, List.length_map]
          omega
    · exact hnone h
  · exact hnone h


theorem exists_unsignedText {negative : Bool} {size : Nat}
    (h : numeral negative gs = .ok (n, size)) :
    ∃ (v : List Char) (rest : List Glyph), gs = v.map .char ++ rest ∧ UnsignedText negative v n ∧
      size = v.length := by
  obtain ⟨ds, hread, h⟩ := bind_eq_ok_iff.mp h
  obtain ⟨fraction?, hread', h⟩ := bind_eq_ok_iff.mp h
  obtain ⟨⟨exponent?, exponentSize⟩, hread'', h⟩ := bind_eq_ok_iff.mp h
  obtain ⟨rfl, rfl⟩ := Prod.mk.inj (Except.ok.inj h)
  have hdrop (w : List Char) (gs : List Glyph) : (w.map Glyph.char ++ gs).drop w.length = gs :=
    List.drop_left' (List.length_map _)
  obtain ⟨whole, gs₁, rfl, hwhole, rfl⟩ := exists_wholeText hread
  rw [List.length_map, hdrop] at hread' hread''
  obtain ⟨fraction, gs₂, rfl, hfraction, hsize⟩ := exists_fractionText hread'
  rw [hsize, hdrop] at hread''
  obtain ⟨exponent, gs₃, rfl, hexponent, rfl⟩ := exists_exponentText hread''
  refine ⟨whole ++ (fraction ++ exponent), gs₃, ?_, .mk hwhole hfraction hexponent, ?_⟩
  · rw [List.map_append, List.map_append, List.append_assoc, List.append_assoc]
  · rw [hsize, List.length_map, List.length_append, List.length_append, Nat.add_assoc]

/-! ## Lexemes -/

/-- The text of a lexeme. -/
inductive LexemeText : List Glyph → Lexeme → Prop
  | openBrace : LexemeText [.char '\x7b'] .openBrace
  | closeBrace : LexemeText [.char '\x7d'] .closeBrace
  | openBracket : LexemeText [.char '['] .openBracket
  | closeBracket : LexemeText [.char ']'] .closeBracket
  | colon : LexemeText [.char ':'] .colon
  | comma : LexemeText [.char ','] .comma
  | null : LexemeText (['n', 'u', 'l', 'l'].map .char) .null
  | bool (b : Bool) : LexemeText ((boolChars b).map .char) (.bool b)
  | number {w : List Char} {n : Numeral} (h : NumberText w n) :
      LexemeText (w.map .char) (.number n)
  | string {w : List Glyph} {text : Except Fault String} (h : Quotes w text) :
      LexemeText (.char '"' :: (w ++ [.char '"'])) (.string text)

theorem eq_append_of_word {due : List Char} {l l' : Lexeme} {remnant : Remnant} {k : Nat}
    (h : word due l remnant gs = (l', k)) (hcut : ∀ c, l' ≠ .cut c) :
    l = l' ∧ gs = due.map .char ++ gs.drop k := by
  unfold word at h
  dsimp only at h
  split_ifs at h with hword
  · obtain ⟨rfl, rfl⟩ := Prod.mk.inj h
    obtain ⟨rest, rfl⟩ := List.isPrefixOf_iff_prefix.mp hword
    exact ⟨rfl, by rw [List.drop_left]⟩
  · obtain ⟨rfl, -⟩ := Prod.mk.inj h
    exact absurd rfl (hcut _)
  · obtain ⟨rfl, -⟩ := Prod.mk.inj h
    exact absurd rfl (hcut _)

theorem exists_numberText {negative : Bool} {l : Lexeme} {k : Nat}
    (h : numberLexeme negative gs = (l, k)) (hcut : ∀ c, l ≠ .cut c) :
    ∃ (v : List Char) (n : Numeral), l = .number n ∧ UnsignedText negative v n ∧ k = v.length ∧
      gs = v.map .char ++ gs.drop k := by
  unfold numberLexeme at h
  split at h
  · rename_i n size hread
    obtain ⟨rfl, rfl⟩ := Prod.mk.inj h
    obtain ⟨v, rest, rfl, hv, rfl⟩ := exists_unsignedText hread
    exact ⟨v, n, rfl, hv, rfl, by rw [List.drop_left' (List.length_map _)]⟩
  · obtain ⟨rfl, -⟩ := Prod.mk.inj h
    exact absurd rfl (hcut _)

/-- A lexeme that is no cut was read from its text. -/
theorem exists_lexemeText {g : Glyph} {rest : List Glyph} {l : Lexeme} {k : Nat}
    (h : lexeme g rest = (l, k)) (hcut : ∀ c, l ≠ .cut c) :
    ∃ w, LexemeText w l ∧ g :: rest = w ++ rest.drop k := by
  unfold lexeme at h
  split at h
  · obtain ⟨rfl, rfl⟩ := Prod.mk.inj h
    exact ⟨_, .openBrace, rfl⟩
  · obtain ⟨rfl, rfl⟩ := Prod.mk.inj h
    exact ⟨_, .closeBrace, rfl⟩
  · obtain ⟨rfl, rfl⟩ := Prod.mk.inj h
    exact ⟨_, .openBracket, rfl⟩
  · obtain ⟨rfl, rfl⟩ := Prod.mk.inj h
    exact ⟨_, .closeBracket, rfl⟩
  · obtain ⟨rfl, rfl⟩ := Prod.mk.inj h
    exact ⟨_, .colon, rfl⟩
  · obtain ⟨rfl, rfl⟩ := Prod.mk.inj h
    exact ⟨_, .comma, rfl⟩
  · obtain ⟨rfl, hrest⟩ := eq_append_of_word h hcut
    exact ⟨_, .null, congrArg _ hrest⟩
  · obtain ⟨rfl, hrest⟩ := eq_append_of_word h hcut
    exact ⟨_, .bool true, congrArg _ hrest⟩
  · obtain ⟨rfl, hrest⟩ := eq_append_of_word h hcut
    exact ⟨_, .bool false, congrArg _ hrest⟩
  · obtain ⟨w, text, rfl, hw, hrest⟩ := exists_quotes h hcut
    exact ⟨_, .string hw, (congrArg _ hrest).trans (by simp)⟩
  · obtain ⟨v, n, rfl, hv, -, hrest⟩ := exists_numberText h hcut
    exact ⟨_, .number (.negative hv), congrArg _ hrest⟩
  · split_ifs at h with hdigit
    · obtain ⟨rfl, rfl⟩ := Prod.mk.inj h
      obtain ⟨v, n, hl, hv, hk, hrest⟩ := exists_numberText rfl hcut
      obtain ⟨d, v', rfl, -⟩ := hv.exists_digit
      rw [hk, List.length_cons, List.drop_succ_cons] at hrest
      rw [hl, hk]
      exact ⟨_, .number (.plain hv), hrest⟩
    · obtain ⟨rfl, -⟩ := Prod.mk.inj h
      exact absurd rfl (hcut _)
  · obtain ⟨rfl, -⟩ := Prod.mk.inj h
    exact absurd rfl (hcut _)

/-- The text of these lexemes, with white space anywhere between them. -/
inductive Lexed : List Glyph → List Lexeme → Prop
  | nil : Lexed [] []
  | blank {c : Char} {gs : List Glyph} {ls : List Lexeme} (hc : c ∈ [' ', '\t', '\n', '\r'])
      (h : Lexed gs ls) : Lexed (.char c :: gs) ls
  | lexeme {w gs : List Glyph} {l : Lexeme} {ls : List Lexeme} (hw : LexemeText w l)
      (h : Lexed gs ls) : Lexed (w ++ gs) (l :: ls)

theorem mem_of_isSpace {g : Glyph} (h : isSpace g = true) :
    ∃ c ∈ [' ', '\t', '\n', '\r'], g = .char c := by
  cases g with
  | stray run => cases h
  | char c =>
    refine ⟨c, ?_, rfl⟩
    simpa [isSpace, or_assoc] using h

/-- Lexemes without a cut were read from their text. -/
theorem lexed_lexemesFrom (gs : List Glyph) (hcut : ∀ c, .cut c ∉ lexemesFrom 0 gs) :
    Lexed gs (lexemesFrom 0 gs) := by
  induction hlength : gs.length using Nat.strongRecOn generalizing gs with
  | ind length ih =>
  cases gs with
  | nil => exact .nil
  | cons g rest =>
    subst hlength
    have hshorter (k : Nat) : (rest.drop k).length < (g :: rest).length := by
      rw [List.length_drop, List.length_cons]
      omega
    by_cases hspace : isSpace g = true
    · obtain ⟨c, hc, rfl⟩ := mem_of_isSpace hspace
      rw [lexemesFrom, if_pos hspace] at hcut ⊢
      exact .blank hc (ih _ (hshorter 0) rest hcut rfl)
    · obtain ⟨l, k, hl⟩ : ∃ l k, lexeme g rest = (l, k) := ⟨_, _, rfl⟩
      by_cases hl' : ∃ c, l = .cut c
      · obtain ⟨c, rfl⟩ := hl'
        rw [lexemesFrom, if_neg hspace, hl] at hcut
        exact absurd List.mem_cons_self (hcut c)
      · have hno : ∀ c, l ≠ .cut c := fun c hc ↦ hl' ⟨c, hc⟩
        rw [lexemesFrom_lexeme (Bool.eq_false_iff.mpr hspace) hl hno] at hcut ⊢
        obtain ⟨w, hw, hrest⟩ := exists_lexemeText hl hno
        rw [hrest]
        exact .lexeme hw (ih _ (hshorter k) _ (fun c hc ↦ hcut c (List.mem_cons_of_mem _ hc)) rfl)

variable {ms : List Lexeme} {l : Lexeme}

/-- A lexeme in the middle parts the text. -/
theorem Lexed.split (ls : List Lexeme) (h : Lexed gs (ls ++ l :: ms)) :
    ∃ u w v, gs = u ++ (w ++ v) ∧ Lexed u ls ∧ LexemeText w l ∧ Lexed v ms := by
  generalize hall : ls ++ l :: ms = all at h
  induction h generalizing ls with
  | nil => cases ls <;> cases hall
  | blank hc _ ih =>
    obtain ⟨u, w, v, rfl, hu, hw, hv⟩ := ih ls hall
    exact ⟨_, w, v, rfl, .blank hc hu, hw, hv⟩
  | @lexeme w' gs l' ls' hw' h ih =>
    cases ls with
    | nil =>
      obtain ⟨rfl, rfl⟩ := List.cons.inj hall
      exact ⟨[], w', gs, rfl, .nil, hw', h⟩
    | cons l'' ls =>
      obtain ⟨rfl, htail⟩ := List.cons.inj hall
      obtain ⟨u, w, v, rfl, hu, hw, hv⟩ := ih ls htail
      exact ⟨w' ++ u, w, v, (List.append_assoc _ _ _).symm, .lexeme hw' hu, hw, hv⟩

theorem Lexed.exists_blank (h : Lexed gs []) : ∃ b, Blank b ∧ gs = b.map .char := by
  generalize hnil : ([] : List Lexeme) = ls at h
  induction h with
  | nil => exact ⟨[], List.forall_mem_nil _, rfl⟩
  | blank hc _ ih =>
    obtain ⟨b, hb, rfl⟩ := ih hnil
    exact ⟨_ :: b, List.forall_mem_cons.mpr ⟨hc, hb⟩, rfl⟩
  | lexeme => cases hnil

end ItemSql.Json
