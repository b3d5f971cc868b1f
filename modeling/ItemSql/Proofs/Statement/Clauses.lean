import ItemSql.Proofs.Statement.Reads
import ItemSql.Proofs.Token.Vocabulary

/-!
# Clauses read their nonterminals

One lemma for each parser that several statements share: it reads the nonterminal of its name. The
grammar and the parser divide the operators differently. The parser looks at the word and then at
what it stands for; the grammar has one form for signs and one for `between`. On scanned symbols
this is the same, because the scanner keeps the two in different classes.
-/

namespace ItemSql.Statement

open Token ItemSql.Parser Grammar

/-! ## Tests -/

theorem tests_kind (kind : Kind) (h : kind ≠ .endOfInput) :
    Tests (fun t ↦ decide (t.kind = kind) = true) fun s ↦ s.kind = kind where
  iff _ := decide_eq_true_iff
  not_end := h.symm

theorem tests_keyword (word : String) : Tests (fun t ↦ isKeyword t word = true) (Keyword word) where
  iff t := isKeyword_iff t word
  not_end h := by cases h.1

theorem tests_conjunction :
    Tests (fun t ↦ (isKeyword t "and" || isKeyword t "or" || decide (t.kind = .operator)) = true)
      Conjunction where
  iff t := by
    rw [Bool.or_eq_true, Bool.or_eq_true, isKeyword_iff, isKeyword_iff, decide_eq_true_iff,
      or_assoc]
    rfl
  not_end h := by
    rcases h with h | h | h
    · cases h.1
    · cases h.1
    · cases h

theorem Grammar.Keyword.eq {word word' : String} {s : Symbol} (h : Keyword word s)
    (h' : Keyword word' s) : word = word' :=
  h.2.symm.trans h'.2

theorem Grammar.Keyword.kind_ne {word : String} {s : Symbol} (h : Keyword word s) {kind : Kind}
    (hkind : kind ≠ .keyword) : s.kind ≠ kind :=
  fun hs ↦ hkind (hs.symm.trans h.1)

/-! ## Single symbols -/

theorem takes_identifier : Takes identifier fun s name ↦ s = ⟨.identifier, name⟩ :=
  takes_expect (by decide)

theorem takes_literal : Takes literal Grammar.Literal := by
  refine takes_next (fun t ts a rest _ ↦ ?_) (fun offset a rest ↦ ?_) fun a h ↦ ?_
  · obtain ⟨kind, text, offset⟩ := t
    cases kind with
    | string =>
      constructor
      · intro h
        obtain ⟨rfl, rfl⟩ := Outcome.done.inj h
        exact ⟨.string text, rfl⟩
      · rintro ⟨⟨⟩, rfl⟩
        rfl
    | number =>
      constructor
      · intro h
        obtain ⟨rfl, rfl⟩ := Outcome.done.inj h
        exact ⟨.number text, rfl⟩
      · rintro ⟨⟨⟩, rfl⟩
        rfl
    | _ =>
      constructor
      · intro h
        cases h
      · rintro ⟨⟨⟩, rfl⟩
  · intro h
    cases h
  · cases h

/-- An operator symbol stands for a comparison other than `between`, which is a keyword. -/
theorem takes_comparison : Takes comparison fun s op ↦
    (op ≠ .between ∧ ∃ text, s = ⟨.operator, text⟩ ∧ ComparisonOperator.ofSymbol? text = some op) ∨
      (op = .between ∧ Keyword "between" s) := by
  have hraw : Takes comparison fun s op ↦
      (s.kind = .operator ∨ s.kind = .keyword) ∧
        ComparisonOperator.ofSymbol? s.text = some op := by
    refine takes_next (fun t ts op rest _ ↦ ?_) (fun offset op rest ↦ ?_) fun op h ↦ ?_
    · by_cases h : t.kind = .operator ∨ t.kind = .keyword
      · rw [if_pos h]
        cases hop : ComparisonOperator.ofSymbol? t.text with
        | some op' => simp [Token.symbol, h, hop, eq_comm (a := ts), eq_comm (a := op')]
        | none => simp [Token.symbol, hop, unexpected, fail]
      · rw [if_neg h]
        simp [Token.symbol, h, unexpected, fail]
    · simp [unexpected, fail]
    · rcases h.1 with h | h <;> cases h
  refine hraw.congr (fun s op hs ↦ ?_) fun op h ↦ ?_
  · constructor
    · rintro ⟨hkind | hkind, hop⟩
      · refine .inl ⟨?_, s.text, by rw [← hkind], hop⟩
        rintro rfl
        exact hs.ne_between hkind hop
      · obtain rfl := hs.eq_between hkind hop
        exact .inr ⟨rfl, hkind, lowerAscii_eq_symbol hop⟩
    · rintro (⟨-, text, rfl, hop⟩ | ⟨rfl, hkind, hword⟩)
      · exact ⟨.inl rfl, hop⟩
      · refine ⟨.inr hkind, ?_⟩
        rw [ComparisonOperator.ofSymbol?, hword]
        rfl
  · rcases h with ⟨-, text, h, -⟩ | ⟨-, h, -⟩ <;> cases h

theorem takes_equals : Takes equals fun s _ ↦ s = ⟨.operator, "="⟩ := by
  refine takes_next (fun t ts a rest _ ↦ ?_) (fun offset a rest ↦ ?_) fun a h ↦ ?_
  · by_cases h : t.kind = .operator ∧ t.text = "="
    · rw [if_pos h, pure_apply]
      simp [Token.symbol, h.1, h.2, eq_comm]
    · rw [if_neg h]
      simp [Token.symbol, unexpected, fail, h]
  · simp [unexpected, fail]
  · cases h

/-! ## Elements of lists -/

theorem reads_identifier : Reads identifier Name Any := by
  refine takes_identifier.reads.congr fun w name ↦ ?_
  constructor
  · rintro ⟨s, rfl, rfl⟩
    exact .mk name
  · rintro ⟨⟩
    exact ⟨_, rfl, rfl⟩

theorem reads_literal : Reads literal Value Any := by
  refine takes_literal.reads.congr fun w value ↦ ?_
  constructor
  · rintro ⟨s, rfl, hs⟩
    exact .mk hs
  · rintro ⟨hs⟩
    exact ⟨_, rfl, hs⟩

/-- Two literals in parentheses. -/
private inductive Pair : List Symbol → List AttributeValue → Prop
  | mk {left comma right : String} {low high : Symbol} {a b : AttributeValue}
      (hlow : Grammar.Literal low a) (hhigh : Grammar.Literal high b) :
      Pair [⟨.leftParen, left⟩, low, ⟨.comma, comma⟩, high, ⟨.rightParen, right⟩] [a, b]

private theorem reads_literalPair : Reads literalPair Pair Any := by
  refine ((takes_expect (by decide)).bind fun _ ↦ takes_literal.bind fun low ↦
    (takes_expect (by decide)).bind fun _ ↦ takes_literal.bind fun high ↦
    (takes_expect (by decide)).bind fun _ ↦ reads_pure [low, high]).congr fun w values ↦ ?_
  constructor
  · rintro ⟨_, left, _, rfl, rfl, low, a, _, rfl, hlow, _, comma, _, rfl, rfl, high, b, _, rfl,
      hhigh, _, right, _, rfl, rfl, rfl, rfl⟩
    exact .mk hlow hhigh
  · rintro ⟨hlow, hhigh⟩
    exact ⟨_, _, _, rfl, rfl, _, _, _, rfl, hlow, _, _, _, rfl, rfl, _, _, _, rfl, hhigh, _, _, _,
      rfl, rfl, rfl, rfl⟩

private theorem reads_singleLiteral : Reads ((fun value ↦ [value]) <$> literal)
    (fun w values ↦ ∃ s value, w = [s] ∧ Grammar.Literal s value ∧ values = [value]) Any := by
  refine (takes_literal.bind fun value ↦ reads_pure [value]).congr fun w values ↦ ?_
  constructor
  · rintro ⟨s, value, _, rfl, hs, rfl, rfl⟩
    exact ⟨s, value, rfl, hs, rfl⟩
  · rintro ⟨s, value, rfl, hs, rfl⟩
    exact ⟨s, value, _, rfl, hs, rfl, rfl⟩

/-- What stands behind the operator depends on it. -/
private theorem reads_operands (name : String) (op : ComparisonOperator) :
    Reads (if op = .between then do
        let values ← literalPair
        return Expression.mk name op values
      else do
        let values ← (fun value ↦ [value]) <$> literal
        return Expression.mk name op values)
      (fun w e ↦ ∃ values, e = ⟨name, op, values⟩ ∧
        if op = .between then Pair w values
        else ∃ s value, w = [s] ∧ Grammar.Literal s value ∧ values = [value]) Any := by
  by_cases hop : op = .between
  · rw [if_pos hop]
    simp only [if_pos hop]
    exact (reads_literalPair.map (Expression.mk name op)).congr fun w e ↦
      exists_congr fun values ↦ and_comm
  · rw [if_neg hop]
    simp only [if_neg hop]
    exact (reads_singleLiteral.map (Expression.mk name op)).congr fun w e ↦
      exists_congr fun values ↦ and_comm

theorem reads_expression : Reads expression Comparison Any := by
  refine (takes_identifier.bind fun name ↦ takes_comparison.bind fun op ↦
    reads_operands name op).congr_of_isCut fun w e hcut ↦ ?_
  constructor
  · rintro ⟨_, name, _, rfl, rfl, k, op, v, rfl, hop, values, rfl, hvalues⟩
    rcases hop with ⟨hne, sign, rfl, hop⟩ | ⟨rfl, hk⟩
    · rw [if_neg hne] at hvalues
      obtain ⟨s, value, rfl, hs, rfl⟩ := hvalues
      exact .sign hop hs
    · rw [if_pos rfl] at hvalues
      obtain ⟨hlow, hhigh⟩ := hvalues
      exact .between hk hlow hhigh
  · intro h
    cases h with
    | @sign name sign op s value hop hs =>
      -- No operator symbol is spelled as the keyword, or the parser would want two literals.
      have hne : op ≠ .between := by
        rintro rfl
        exact (hcut ⟨.operator, sign⟩ (by simp)).ne_between rfl hop
      refine ⟨_, name, _, rfl, rfl, _, op, _, rfl, .inl ⟨hne, sign, rfl, hop⟩, [value], rfl, ?_⟩
      rw [if_neg hne]
      exact ⟨s, value, rfl, hs, rfl⟩
    | @between name left comma right k low high a b hk hlow hhigh =>
      refine ⟨_, name, _, rfl, rfl, k, .between, _, rfl, .inr ⟨rfl, hk⟩, [a, b], rfl, ?_⟩
      rw [if_pos rfl]
      exact .mk hlow hhigh

theorem reads_assignment : Reads assignment Assignment Any := by
  refine (takes_identifier.bind fun name ↦ takes_equals.bind fun _ ↦ takes_literal.bind fun value ↦
    reads_pure (Expression.mk name .eq [value])).congr fun w e ↦ ?_
  constructor
  · rintro ⟨_, name, _, rfl, rfl, _, _, _, rfl, rfl, s, value, _, rfl, hs, rfl, rfl⟩
    exact .mk hs
  · rintro ⟨hs⟩
    exact ⟨_, _, _, rfl, rfl, _, (), _, rfl, rfl, _, _, _, rfl, hs, rfl, rfl⟩

/-! ## Lists in parentheses -/

variable {α : Type} {element : Parser α} {R : List Symbol → α → Prop} {F : Symbol → Prop}

/-- Neither punctuation that may stand behind an element goes on it. -/
theorem reads_parenthesized (h : Reads element R F) (hcomma : ∀ s, Comma s → F s)
    (hright : ∀ s : Symbol, s.kind = .rightParen → F s) :
    Reads (parenthesized element) (Parenthesized R) Any := by
  have hchain : Reads (chain element comma) (SepBy Comma R) fun s ↦ F s ∧ ¬ Comma s :=
    (tests_kind .comma (by decide)).reads_chain h hcomma
  refine ((takes_expect (by decide)).bind fun _ ↦ hchain.bind (fun elements ↦
    (takes_expect (by decide)).bind fun _ ↦ reads_pure elements) ?_).congr fun w as ↦ ?_
  · rintro as v _ rest ⟨_, right, v', rfl, rfl, -⟩ -
    refine follows_cons ⟨hright _ rfl, ?_⟩
    intro hcomma
    cases hcomma
  · constructor
    · rintro ⟨_, left, _, rfl, rfl, u, as, _, rfl, has, _, right, _, rfl, rfl, rfl, rfl⟩
      exact .mk has
    · rintro ⟨has⟩
      exact ⟨_, _, _, rfl, rfl, _, as, _, rfl, has, _, _, _, rfl, rfl, rfl, rfl⟩

/-! ## The end of a statement -/

private theorem ends_expectEnd (q : Parser α) :
    Ends (expect .endOfInput >>= fun _ ↦ q) fun w a ↦
      w = [endSymbol] ∧ ∃ rest, q [] = .done a rest := by
  intro ts a hts
  cases hts with
  | last offset =>
    constructor
    · intro h
      exact ⟨rfl, h⟩
    · rintro ⟨-, h⟩
      exact h
  | @cons t ts ht hts =>
    have hkind : t.kind ≠ .endOfInput := ht.kind_ne
    constructor
    · rintro ⟨rest, h⟩
      obtain ⟨text, mid, htext, -⟩ := bind_eq_done.mp h
      change (if t.kind = .endOfInput then _ else _ : Parser String) ts = _ at htext
      rw [if_neg hkind] at htext
      cases htext
    · rintro ⟨h, -⟩
      obtain ⟨hsymbol, -⟩ := List.cons.inj h
      exact absurd (congrArg Symbol.kind hsymbol) hkind

/-- A statement ends with the input; what is done behind its end does not look at any token. -/
theorem ends_finish (q : Parser α) :
    Ends (finish >>= fun _ ↦ q) fun w a ↦ Ending w ∧ ∃ rest, q [] = .done a rest := by
  intro ts a hts
  have hend := ends_expectEnd q
  have hfinish : (finish >>= fun _ ↦ q) =
      eat .semicolon >>= fun _ ↦ expect .endOfInput >>= fun _ ↦ q := by
    simp only [finish, bind_assoc, pure_bind]
  rw [hfinish, eat, eatIf_bind]
  cases hts with
  | last offset =>
    refine (hend (.last offset)).trans ?_
    constructor
    · rintro ⟨-, h⟩
      exact ⟨.bare, h⟩
    · rintro ⟨-, h⟩
      exact ⟨rfl, h⟩
  | @cons t ts ht hts =>
    change (∃ rest, (if decide (t.kind = .semicolon) then _ else _ : Parser α) (t :: ts) = _) ↔ _
    -- A semicolon is eaten and the end is expected behind it; anything else must be the end.
    by_cases hsemicolon : t.kind = .semicolon
    · rw [if_pos (decide_eq_true hsemicolon)]
      refine (hend hts).trans ?_
      constructor
      · rintro ⟨hts, h⟩
        rw [symbols_cons, hts, Token.symbol, hsemicolon]
        exact ⟨.semicolon t.text, h⟩
      · rintro ⟨hending, h⟩
        rw [symbols_cons] at hending
        generalize hw : t.symbol :: symbols ts = w at hending
        cases hending with
        | bare =>
          obtain ⟨hsymbol, -⟩ := List.cons.inj hw
          exact absurd (congrArg Symbol.kind hsymbol) ht.kind_ne
        | semicolon => exact ⟨(List.cons.inj hw).2, h⟩
    · have hfalse : ¬ decide (t.kind = .semicolon) = true := by simpa using hsemicolon
      rw [if_neg hfalse]
      refine (hend (.cons ht hts)).trans ?_
      constructor
      · rintro ⟨hts, h⟩
        rw [hts]
        exact ⟨.bare, h⟩
      · rintro ⟨hending, h⟩
        rw [symbols_cons] at hending ⊢
        generalize hw : t.symbol :: symbols ts = w at hending
        cases hending with
        | bare => exact ⟨rfl, h⟩
        | semicolon =>
          obtain ⟨hsymbol, -⟩ := List.cons.inj hw
          exact absurd (congrArg Symbol.kind hsymbol) hsemicolon

theorem ends_finish_pure (a : α) :
    Ends (finish >>= fun _ ↦ pure a) fun w b ↦ Ending w ∧ b = a := by
  refine (ends_finish (pure a)).congr fun w b ↦ and_congr_right fun _ ↦ ?_
  constructor
  · rintro ⟨rest, h⟩
    obtain ⟨rfl, -⟩ := Outcome.done.inj h
    rfl
  · rintro rfl
    exact ⟨[], rfl⟩

end ItemSql.Statement
