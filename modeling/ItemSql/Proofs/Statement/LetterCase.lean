import Mathlib.Data.List.Forall2
import ItemSql.Proofs.Text.Case
import ItemSql.Statement.Parse

/-!
# Layout and letter case do not matter

Two texts whose tokens are alike, class by class and text by text up to the letter case of reserved
words, are accepted with one request or refused at one place for one reason. What stands between the
tokens is not even asked.

This is about two runs of the parser, so it is proved of two runs. `Parser.Parallel R p q` says that
on alike tokens `p` and `q` take the same number and come to answers that are related by `R`, or
fail for alike causes. Each way to put parsers together keeps it, and a parser runs parallel to
itself as soon as its parts do. Only where a token is looked at is there anything to see: a word is
compared in lower case, and what is compared as it stands belongs to a class without letter case, or
is a sign or a number.
-/

namespace ItemSql

open Token

/-! ## Tokens that are alike -/

namespace Token

/-- The classes of words that are recognised in any letter case. -/
def Kind.reserved : List Kind :=
  [.keyword, .typeName, .constraint, .operator]

/-- Tokens that differ in their places, and in the case of ASCII letters if they are reserved. -/
structure Alike (t t' : Token) : Prop where
  kind : t.kind = t'.kind
  letters : Text.lowerAscii t.text = Text.lowerAscii t'.text
  text : t.kind ∉ Kind.reserved → t.text = t'.text

instance (t t' : Token) : Decidable (Alike t t') :=
  decidable_of_iff (t.kind = t'.kind ∧ Text.lowerAscii t.text = Text.lowerAscii t'.text ∧
      (t.kind ∉ Kind.reserved → t.text = t'.text))
    ⟨fun ⟨hkind, hletters, htext⟩ ↦ ⟨hkind, hletters, htext⟩,
      fun h ↦ ⟨h.kind, h.letters, h.text⟩⟩

theorem Alike.refl (t : Token) : Alike t t :=
  ⟨rfl, rfl, fun _ ↦ rfl⟩

theorem Alike.symm {t t' : Token} (h : Alike t t') : Alike t' t :=
  ⟨h.kind.symm, h.letters.symm, fun hkind ↦ (h.text (h.kind ▸ hkind)).symm⟩

theorem Alike.isKeyword_eq {t t' : Token} (h : Alike t t') (word : String) :
    Parser.isKeyword t word = Parser.isKeyword t' word := by
  rw [Parser.isKeyword, Parser.isKeyword, h.kind, h.letters]

end Token

/-- Causes that differ in the letter case of what was found. -/
inductive SyntaxError.Cause.Alike : Cause → Cause → Prop
  | unexpectedToken {t t' : Token} (h : Token.Alike t t') (expected : Expected) :
      Alike (.unexpectedToken t.text t.kind expected) (.unexpectedToken t'.text t'.kind expected)
  | unknownStatement {t t' : Token} (h : Token.Alike t t') :
      Alike (.unknownStatement t.text) (.unknownStatement t'.text)
  | invalidThroughput {t t' : Token} (name : String) (h : Token.Alike t t') :
      Alike (.invalidThroughput name t.text) (.invalidThroughput name t'.text)
  | columnCountMismatch (columns values : Nat) :
      Alike (.columnCountMismatch columns values) (.columnCountMismatch columns values)
  | invalidLimit (value : String) : Alike (.invalidLimit value) (.invalidLimit value)

/-! ## Parallel runs -/

variable {α β : Type} {R : α → α → Prop} {S : β → β → Prop}

/-- How runs on two lists of tokens end that took the same number of tokens. -/
inductive Outcome.Parallel (R : α → α → Prop) (ts ts' : List Token) : Outcome α → Outcome α → Prop
  | done (n : Nat) {a a' : α} (h : R a a') :
      Parallel R ts ts' (.done a (ts.drop n)) (.done a' (ts'.drop n))
  | failed (n : Nat) {cause cause' : SyntaxError.Cause} (h : cause.Alike cause') :
      Parallel R ts ts' (.failed cause (ts.drop n)) (.failed cause' (ts'.drop n))

/-- Parsers that run parallel on alike tokens. -/
def Parser.Parallel (R : α → α → Prop) (p p' : Parser α) : Prop :=
  ∀ ⦃ts ts' : List Token⦄, List.Forall₂ Token.Alike ts ts' →
    Outcome.Parallel R ts ts' (p ts) (p' ts')

namespace Parser

variable {p p' q q' : Parser α} {f f' : α → Parser β}

theorem parallel_pure {a a' : α} (h : R a a') : Parallel R (pure a) (pure a') :=
  fun _ _ _ ↦ .done 0 h

theorem parallel_fail {cause cause' : SyntaxError.Cause} (h : cause.Alike cause') :
    Parallel R (fail cause) (fail cause') :=
  fun _ _ _ ↦ .failed 0 h

theorem Parallel.bind (hp : Parallel R p p') (hf : ∀ a a', R a a' → Parallel S (f a) (f' a')) :
    Parallel S (p >>= f) (p' >>= f') := by
  intro ts ts' hts
  have hrun := hp hts
  rw [bind_apply, bind_apply]
  generalize p ts = result, p' ts' = result' at hrun
  cases hrun with
  | failed n hcause => exact .failed n hcause
  | @done n a a' ha =>
    -- The second parsers begin where the first ones ended, as many tokens later.
    have hrest : List.Forall₂ Token.Alike (ts.drop n) (ts'.drop n) := List.forall₂_drop n hts
    have hrun := hf a a' ha hrest
    dsimp only
    generalize f a (ts.drop n) = result, f' a' (ts'.drop n) = result' at hrun
    cases hrun with
    | done m hb =>
      rw [List.drop_drop, List.drop_drop]
      exact .done (n + m) hb
    | failed m hcause =>
      rw [List.drop_drop, List.drop_drop]
      exact .failed (n + m) hcause

/-- What comes behind answers that are equal. -/
theorem Parallel.seq {p p' : Parser α} (hp : Parallel Eq p p') (hf : ∀ a, Parallel S (f a) (f' a)) :
    Parallel S (p >>= f) (p' >>= f') :=
  hp.bind fun a _ h ↦ h ▸ hf a

theorem Parallel.ite {c c' : Prop} [Decidable c] [Decidable c'] (hc : c ↔ c')
    (hp : Parallel R p p') (hq : Parallel R q q') :
    Parallel R (if c then p else q) (if c' then p' else q') := by
  by_cases h : c
  · rw [if_pos h, if_pos (hc.mp h)]
    exact hp
  · rw [if_neg h, if_neg fun h' ↦ h (hc.mpr h')]
    exact hq

/-! ### Single tokens -/

theorem parallel_next : Parallel Token.Alike next next := by
  intro ts ts' hts
  cases hts with
  | nil => exact .done 0 (.refl _)
  | cons ht _ => exact .done 1 ht

theorem parallel_peek : Parallel Token.Alike peek peek := by
  intro ts ts' hts
  refine .done 0 ?_
  cases hts with
  | nil => exact .refl _
  | cons ht _ => exact ht

theorem parallel_unexpected {t t' : Token} (h : Token.Alike t t') (expected : Expected) :
    Parallel R (unexpected t expected) (unexpected t' expected) :=
  parallel_fail (.unexpectedToken h expected)

/-- The text of a class without letter case. -/
theorem parallel_expect {kind : Kind} (hkind : kind ∉ Kind.reserved) :
    Parallel Eq (expect kind) (expect kind) := by
  refine parallel_next.bind fun t t' ht ↦ ?_
  by_cases h : t.kind = kind
  · rw [if_pos h, if_pos (ht.kind ▸ h)]
    exact parallel_pure (ht.text (h ▸ hkind))
  · rw [if_neg h, if_neg (ht.kind ▸ h)]
    exact parallel_unexpected ht _

theorem parallel_expectKeyword (word : String) :
    Parallel Eq (expectKeyword word) (expectKeyword word) := by
  refine parallel_next.bind fun t t' ht ↦ ?_
  rw [ht.isKeyword_eq]
  exact .ite .rfl (parallel_pure rfl) (parallel_unexpected ht _)

theorem parallel_eatIf {test : Token → Bool}
    (htest : ∀ t t', Token.Alike t t' → test t = test t') : Parallel Eq (eatIf test) (eatIf test) := by
  refine parallel_peek.bind fun t t' ht ↦ ?_
  rw [htest t t' ht]
  exact .ite .rfl (parallel_next.bind fun _ _ _ ↦ parallel_pure rfl) (parallel_pure rfl)

theorem parallel_eat (kind : Kind) : Parallel Eq (eat kind) (eat kind) :=
  parallel_eatIf fun t t' ht ↦ by rw [ht.kind]

theorem parallel_eatKeyword (word : String) : Parallel Eq (eatKeyword word) (eatKeyword word) :=
  parallel_eatIf fun _ _ ht ↦ ht.isKeyword_eq word

/-! ### Lists of elements -/

section Lists

variable {element : Parser α} {separator : Parser Bool}

theorem parallel_chainUpTo (helement : Parallel Eq element element)
    (hseparator : Parallel Eq separator separator) (rounds : Nat) :
    Parallel Eq (chainUpTo element separator rounds) (chainUpTo element separator rounds) := by
  induction rounds with
  | zero => exact helement.seq fun a ↦ parallel_pure rfl
  | succ rounds ih =>
    refine helement.seq fun a ↦ hseparator.seq fun more ↦ ?_
    exact .ite .rfl (ih.seq fun as ↦ parallel_pure rfl) (parallel_pure rfl)

/-- Both lists are read in the same number of rounds, since there are as many tokens. -/
theorem parallel_chain (helement : Parallel Eq element element)
    (hseparator : Parallel Eq separator separator) :
    Parallel Eq (chain element separator) (chain element separator) := by
  intro ts ts' hts
  rw [chain, chain, hts.length_eq]
  exact parallel_chainUpTo helement hseparator _ hts

end Lists

end Parser

/-! ## Clauses -/

namespace Statement

open ItemSql.Parser

theorem parallel_identifier : Parallel Eq identifier identifier :=
  parallel_expect (by decide)

theorem parallel_literal : Parallel Eq literal literal := by
  refine parallel_next.bind ?_
  rintro ⟨kind, text, offset⟩ ⟨kind', text', offset'⟩ ht
  obtain rfl : kind = kind' := ht.kind
  cases kind with
  | string =>
    obtain rfl : text = text' := ht.text (by simp [Kind.reserved])
    exact parallel_pure rfl
  | number =>
    obtain rfl : text = text' := ht.text (by simp [Kind.reserved])
    exact parallel_pure rfl
  | _ => exact parallel_unexpected ht _

theorem parallel_finish : Parallel Eq finish finish :=
  (parallel_eat _).seq fun _ ↦ (parallel_expect (by decide)).seq fun _ ↦ parallel_pure rfl

theorem parallel_comparison : Parallel Eq comparison comparison := by
  refine parallel_next.bind fun t t' ht ↦ .ite (by rw [ht.kind]) ?_ (parallel_unexpected ht _)
  rw [ComparisonOperator.ofSymbol?, ComparisonOperator.ofSymbol?, ht.letters]
  cases ComparisonOperator.all.find? fun op ↦ op.symbol = Text.lowerAscii t'.text with
  | some op => exact parallel_pure rfl
  | none => exact parallel_unexpected ht _

/-- The sign is compared as it stands, and it has no letters. -/
theorem eq_sign_of_alike {t t' : Token} (ht : Token.Alike t t') (h : t.text = "=") :
    t'.text = "=" := by
  refine Text.eq_of_lowerAscii_eq (by simp) ?_
  rw [← ht.letters, h]
  rfl

theorem parallel_equals : Parallel Eq equals equals := by
  refine parallel_next.bind fun t t' ht ↦ .ite ?_ (parallel_pure rfl) (parallel_unexpected ht _)
  rw [ht.kind]
  exact and_congr_right fun _ ↦ ⟨eq_sign_of_alike ht, eq_sign_of_alike ht.symm⟩

theorem parallel_literalPair : Parallel Eq literalPair literalPair :=
  (parallel_expect (by decide)).seq fun _ ↦
  parallel_literal.seq fun _ ↦
  (parallel_expect (by decide)).seq fun _ ↦
  parallel_literal.seq fun _ ↦
  (parallel_expect (by decide)).seq fun _ ↦
  parallel_pure rfl

theorem parallel_expression : Parallel Eq expression expression := by
  refine parallel_identifier.seq fun name ↦ parallel_comparison.seq fun op ↦ ?_
  have hsingle : Parallel Eq ((fun value ↦ [value]) <$> literal)
      ((fun value ↦ [value]) <$> literal) :=
    parallel_literal.seq fun _ ↦ parallel_pure rfl
  exact .ite .rfl (parallel_literalPair.seq fun _ ↦ parallel_pure rfl)
    (hsingle.seq fun _ ↦ parallel_pure rfl)

theorem parallel_assignment : Parallel Eq assignment assignment :=
  parallel_identifier.seq fun _ ↦ parallel_equals.seq fun _ ↦
  parallel_literal.seq fun _ ↦ parallel_pure rfl

theorem parallel_conjunction : Parallel Eq conjunction conjunction :=
  parallel_eatIf fun t t' ht ↦ by rw [ht.isKeyword_eq, ht.isKeyword_eq, ht.kind]

theorem parallel_parenthesized {element : Parser α} (h : Parallel Eq element element) :
    Parallel Eq (parenthesized element) (parenthesized element) :=
  (parallel_expect (by decide)).seq fun _ ↦
  (parallel_chain h (parallel_eat _)).seq fun _ ↦
  (parallel_expect (by decide)).seq fun _ ↦
  parallel_pure rfl

/-! ## Queries -/

theorem parallel_limit (given? : Option Int32) : Parallel Eq (limit given?) (limit given?) := by
  refine parallel_peek.bind fun t t' ht ↦ ?_
  rw [ht.isKeyword_eq]
  refine .ite .rfl ?_ (parallel_pure rfl)
  refine parallel_next.bind fun _ _ _ ↦ .ite .rfl (parallel_unexpected ht _) ?_
  refine (parallel_expect (by decide)).seq fun value ↦ ?_
  cases Decimal.int32? value with
  | none => exact parallel_fail (.invalidLimit value)
  | some n => exact .ite .rfl (parallel_pure rfl) (parallel_fail (.invalidLimit value))

theorem parallel_columns : Parallel Eq columns columns := by
  refine (parallel_eat _).seq fun wildcard ↦ .ite .rfl (parallel_pure rfl) ?_
  refine parallel_peek.bind fun t t' ht ↦ ?_
  rw [ht.isKeyword_eq]
  exact .ite .rfl (parallel_pure rfl) (parallel_chain parallel_identifier (parallel_eat _))

theorem parallel_conditions : Parallel Eq conditions conditions := by
  refine (parallel_eatKeyword _).seq fun asked ↦ .ite .rfl ?_ (parallel_pure rfl)
  exact (parallel_chain parallel_expression parallel_conjunction).seq fun _ ↦ parallel_pure rfl

theorem parallel_order : Parallel Eq order order := by
  refine (parallel_eatKeyword _).seq fun asked ↦ .ite .rfl ?_ (parallel_pure rfl)
  refine (parallel_expectKeyword _).seq fun _ ↦ parallel_identifier.seq fun _ ↦ ?_
  refine (parallel_eatKeyword _).seq fun descending ↦ .ite .rfl (parallel_pure rfl) ?_
  exact (parallel_eatKeyword _).seq fun _ ↦ parallel_pure rfl

theorem parallel_select : Parallel Eq select select :=
  parallel_columns.seq fun _ ↦
  (parallel_expectKeyword _).seq fun _ ↦
  parallel_identifier.seq fun _ ↦
  (parallel_limit _).seq fun _ ↦
  parallel_conditions.seq fun _ ↦
  parallel_order.seq fun _ ↦
  (parallel_limit _).seq fun _ ↦
  parallel_finish.seq fun _ ↦
  parallel_pure rfl

/-! ## Items -/

theorem parallel_insert : Parallel Eq insert insert :=
  (parallel_expectKeyword _).seq fun _ ↦
  parallel_identifier.seq fun _ ↦
  (parallel_parenthesized parallel_identifier).seq fun _ ↦
  (parallel_expectKeyword _).seq fun _ ↦
  (parallel_parenthesized parallel_literal).seq fun _ ↦
  parallel_finish.seq fun _ ↦
  .ite .rfl (parallel_pure rfl) (parallel_fail (.columnCountMismatch _ _))

theorem parallel_update : Parallel Eq update update :=
  parallel_identifier.seq fun _ ↦
  (parallel_expectKeyword _).seq fun _ ↦
  (parallel_chain parallel_assignment (parallel_eat _)).seq fun _ ↦
  (parallel_expectKeyword _).seq fun _ ↦
  (parallel_chain parallel_assignment parallel_conjunction).seq fun _ ↦
  parallel_finish.seq fun _ ↦
  parallel_pure rfl

theorem parallel_delete : Parallel Eq delete delete :=
  (parallel_expectKeyword _).seq fun _ ↦
  parallel_identifier.seq fun _ ↦
  (parallel_expectKeyword _).seq fun _ ↦
  (parallel_chain parallel_assignment (parallel_eatKeyword _)).seq fun _ ↦
  parallel_finish.seq fun _ ↦
  parallel_pure rfl

/-! ## Tables -/

theorem parallel_drop : Parallel Eq drop drop :=
  (parallel_expectKeyword _).seq fun _ ↦
  parallel_identifier.seq fun _ ↦
  parallel_finish.seq fun _ ↦
  parallel_pure rfl

theorem parallel_typeWord : Parallel Eq typeWord typeWord := by
  refine parallel_next.bind fun t t' ht ↦ .ite (by rw [ht.kind]) ?_ (parallel_unexpected ht _)
  rw [AttributeType.ofWord?, AttributeType.ofWord?, ht.letters]
  cases AttributeType.all.find? fun type ↦ type.word = Text.lowerAscii t'.text with
  | some type => exact parallel_pure rfl
  | none => exact parallel_unexpected ht _

theorem parallel_keyConstraint : Parallel Eq keyConstraint keyConstraint := by
  refine parallel_peek.bind fun t t' ht ↦ .ite (by rw [ht.kind]) ?_ (parallel_pure rfl)
  refine parallel_next.bind fun _ _ _ ↦ ?_
  have hread : KeyType.ofConstraint? t.text = KeyType.ofConstraint? t'.text := by
    unfold KeyType.ofConstraint? Text.equalsIgnoringCase
    rw [ht.letters]
  rw [hread]
  cases KeyType.ofConstraint? t'.text with
  | some type => exact parallel_pure rfl
  | none => exact parallel_unexpected ht _

theorem parallel_declaration : Parallel Eq declaration declaration :=
  parallel_identifier.seq fun _ ↦ parallel_typeWord.seq fun _ ↦
  parallel_keyConstraint.seq fun _ ↦ parallel_pure rfl

/-- A number is read from any token, but no number has letters. -/
theorem parallel_capacity : Parallel Eq capacity capacity := by
  refine parallel_identifier.seq fun name ↦ parallel_equals.seq fun _ ↦ ?_
  refine parallel_next.bind fun t t' ht ↦ ?_
  have hunits : Decimal.int64? t.text = Decimal.int64? t'.text := by
    rw [← Decimal.int64?_lowerAscii, ht.letters, Decimal.int64?_lowerAscii]
  have hfail : Parallel (@Eq (ProvisionedThroughput → ProvisionedThroughput))
      (fail (.invalidThroughput name t.text)) (fail (.invalidThroughput name t'.text)) :=
    parallel_fail (.invalidThroughput name ht)
  rw [hunits]
  cases Decimal.int64? t'.text with
  | none => exact hfail
  | some units =>
    exact .ite .rfl (parallel_pure rfl) (.ite .rfl (parallel_pure rfl) hfail)

theorem parallel_throughput : Parallel Eq throughput throughput := by
  refine (parallel_eatKeyword _).seq fun asked ↦ .ite .rfl ?_ (parallel_pure rfl)
  exact (parallel_parenthesized parallel_capacity).seq fun _ ↦ parallel_pure rfl

theorem parallel_create : Parallel Eq create create :=
  (parallel_expectKeyword _).seq fun _ ↦
  parallel_identifier.seq fun _ ↦
  (parallel_parenthesized parallel_declaration).seq fun _ ↦
  parallel_throughput.seq fun _ ↦
  parallel_finish.seq fun _ ↦
  parallel_pure rfl

/-! ## Statements -/

theorem parallel_statement : Parallel Eq statement statement := by
  refine parallel_next.bind fun t t' ht ↦ ?_
  simp only [ht.isKeyword_eq]
  exact .ite .rfl parallel_select <| .ite .rfl parallel_insert <| .ite .rfl parallel_update <|
    .ite .rfl parallel_create <| .ite .rfl parallel_delete <| .ite .rfl parallel_drop <|
    parallel_fail (.unknownStatement ht)

/-- The text is refused for a cause, when so many of its tokens are taken. -/
structure Refused (source : String) (position : Nat) (cause : SyntaxError.Cause) : Prop where
  parse_eq : parse source = .error ⟨cause, source⟩
  le_length : position ≤ (scan source).length
  taken : statement (scan source) = .failed cause ((scan source).drop position)

theorem refused_of_statement {source : String} {n : Nat} {cause : SyntaxError.Cause}
    (h : statement (scan source) = .failed cause ((scan source).drop n)) :
    Refused source (min n (scan source).length) cause where
  parse_eq := by rw [parse, h]
  le_length := Nat.min_le_right _ _
  taken := by
    rw [h, ← List.drop_eq_drop_min]

/-- Two texts with tokens that are alike have one request, or are refused at one place for causes
that are alike. -/
theorem parse_alike {source source' : String}
    (h : List.Forall₂ Token.Alike (scan source) (scan source')) :
    (∃ r, parse source = .ok r ∧ parse source' = .ok r) ∨
      ∃ position cause cause', cause.Alike cause' ∧
        Refused source position cause ∧ Refused source' position cause' := by
  have hrun := parallel_statement h
  generalize hs : statement (scan source) = result, hs' : statement (scan source') = result' at hrun
  cases hrun with
  | @done n r r' hr =>
    subst hr
    refine .inl ⟨r, ?_, ?_⟩
    · rw [parse, hs]
    · rw [parse, hs']
  | @failed n cause cause' hcause =>
    have hrefused := refused_of_statement hs'
    rw [← h.length_eq] at hrefused
    exact .inr ⟨_, cause, cause', hcause, refused_of_statement hs, hrefused⟩

/-- One text is accepted and one refused, both in two layouts and letter cases. -/
theorem parse_alike_shouted :
    (∃ r, parse "drop table t" = .ok r ∧ parse " DROP\tTable t" = .ok r) ∧
      ∃ position cause cause', cause.Alike cause' ∧
        Refused "drop from t" position cause ∧ Refused "Drop  FROM\n t" position cause' := by
  have haccepted : List.Forall₂ Token.Alike (scan "drop table t") (scan " DROP\tTable t") := by
    decide +kernel
  have hrefused : List.Forall₂ Token.Alike (scan "drop from t") (scan "Drop  FROM\n t") := by
    decide +kernel
  constructor
  · rcases parse_alike haccepted with hok | ⟨position, cause, -, -, herror, -⟩
    · exact hok
    · have hdrop : parse "drop table t" = .ok (.deleteTable ⟨"t"⟩) := by rfl
      cases hdrop.symm.trans herror.parse_eq
  · rcases parse_alike hrefused with ⟨r, hr, -⟩ | hfailed
    · have hfrom : parse "drop from t" =
          .error ⟨.unexpectedToken "from" .keyword (.keyword "table"), "drop from t"⟩ := by
        rfl
      cases hfrom.symm.trans hr
    · exact hfailed

end Statement

end ItemSql
