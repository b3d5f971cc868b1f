import ItemSql.Proofs.Statement.FirstOffender
import ItemSql.Proofs.Token.Stream

/-!
# Every token is taken once

A stream hands out the end of the input for ever, so nothing but the parser keeps the parser from
calling for it again. It never does: a parse takes each token of the text at most once and none
behind the end, and a parse that succeeds takes them all (`budgeted_parse`).

How many tokens a parser calls for is seen by giving it more of them than it should want. `Within`
says of a parser what a Hoare triple says of a program: from tokens of which `B` holds it takes some
and leaves the others, `A` holds of what an answer leaves, and whatever stands behind the tokens is
left standing. So the end of the input is not taken before the parser comes to an end, be it that it
finishes or that it refuses the token.

In a list of elements every round takes an element and a separator, and an element is at least one
token (`Advances`). The rounds of `Parser.chain`, which are counted, therefore never run out.
-/

namespace ItemSql

open Token

/-- What came of parsing, with other tokens left. -/
def Outcome.leaving {α : Type} (rest : List Token) : Outcome α → Outcome α
  | .done a _ => .done a rest
  | .failed cause _ => .failed cause rest

namespace Parser

variable {α β : Type} {p q : Parser α} {f : α → Parser β} {g : Token → Parser α}
  {A B M : List Token → Prop} {ts : List Token}

/-! ## What is taken of the tokens -/

/-- The parser takes some of the tokens and leaves the others, whatever stands behind them, and `A`
holds of what is left by an answer. -/
inductive Stays (p : Parser α) (A : List Token → Prop) (ts : List Token) : Prop
  | done (a : α) {rest : List Token} (hrest : rest <:+ ts) (hleft : A rest)
      (h : ∀ more, p (ts ++ more) = .done a (rest ++ more))
  | failed (cause : SyntaxError.Cause) {rest : List Token} (hrest : rest <:+ ts)
      (h : ∀ more, p (ts ++ more) = .failed cause (rest ++ more))

/-- The parser stays within tokens of which `B` holds, and leaves tokens of which `A` holds. -/
def Within (B : List Token → Prop) (p : Parser α) (A : List Token → Prop) : Prop :=
  ∀ ⦃ts⦄, B ts → Stays p A ts

/-- All tokens are taken. -/
def Spent (ts : List Token) : Prop :=
  ts = []

theorem within_pure (a : α) : Within B (pure a) B :=
  fun ts h ↦ .done a (List.suffix_refl ts) h fun _ ↦ rfl

theorem within_fail (cause : SyntaxError.Cause) : Within B (fail cause : Parser α) A :=
  fun ts _ ↦ .failed cause (List.suffix_refl ts) fun _ ↦ rfl

theorem within_unexpected (t : Token) (expected : Expected) :
    Within B (unexpected t expected : Parser α) A :=
  within_fail _

/-- What comes behind an answer has only what the answer leaves. -/
theorem Stays.bind (hp : Stays p M ts) (hf : ∀ a ⦃rest⦄, p ts = .done a rest → M rest →
    Stays (f a) A rest) : Stays (p >>= f) A ts := by
  cases hp with
  | failed cause hrest h =>
    exact .failed cause hrest fun more ↦ by rw [bind_apply, h]
  | @done a mid hmid hleft h =>
    have hrun (more : List Token) : (p >>= f) (ts ++ more) = f a (mid ++ more) := by
      rw [bind_apply, h]
    have hdone : p ts = .done a mid := by
      have hnil := h []
      rwa [List.append_nil, List.append_nil] at hnil
    cases hf a hdone hleft with
    | failed cause hrest h' =>
      exact .failed cause (hrest.trans hmid) fun more ↦ (hrun more).trans (h' more)
    | done b hrest hleft' h' =>
      exact .done b (hrest.trans hmid) hleft' fun more ↦ (hrun more).trans (h' more)

/-- What is left is the same whatever stands behind it. -/
theorem Stays.exists_left (h : Stays p A ts) : ∃ rest, rest <:+ ts ∧
    (∀ more, p (ts ++ more) = (p ts).leaving (rest ++ more)) ∧
      ∀ ⦃a left⦄, p ts = .done a left → A rest := by
  cases h with
  | @done a rest hrest hleft h =>
    have hnil := h []
    rw [List.append_nil] at hnil
    exact ⟨rest, hrest, fun more ↦ by rw [h, hnil, Outcome.leaving], fun _ _ _ ↦ hleft⟩
  | @failed cause rest hrest h =>
    have hnil := h []
    rw [List.append_nil] at hnil
    refine ⟨rest, hrest, fun more ↦ by rw [h, hnil, Outcome.leaving], fun a left hdone ↦ ?_⟩
    rw [hnil] at hdone
    cases hdone

theorem Within.bind (hp : Within B p M) (hf : ∀ a, Within M (f a) A) : Within B (p >>= f) A :=
  fun _ hts ↦ (hp hts).bind fun a _ _ hleft ↦ hf a hleft

theorem Within.ite {c : Prop} [Decidable c] (hp : Within B p A) (hq : Within B q A) :
    Within B (if c then p else q) A := by
  by_cases h : c
  · rwa [if_pos h]
  · rwa [if_neg h]

/-! ### Single tokens -/

/-- A token is taken. If it is the end of the input, it is refused. -/
theorem within_next (hend : ∀ offset, ∃ cause, g ⟨.endOfInput, "", offset⟩ = fail cause)
    (h : ∀ t, Within Scanned (g t) A) : Within Scanned (next >>= g) A := by
  intro ts hts
  cases hts with
  | last offset =>
    obtain ⟨cause, hcause⟩ := hend offset
    exact .failed cause (List.nil_suffix) fun more ↦ congrFun hcause more
  | @cons t ts _ hts =>
    cases h t hts with
    | done a hrest hleft h => exact .done a (hrest.trans (List.suffix_cons t ts)) hleft h
    | failed cause hrest h => exact .failed cause (hrest.trans (List.suffix_cons t ts)) h

/-- A token is looked at. There is one, since the end of the input is still there. -/
theorem within_peek (h : ∀ t, Within Scanned (g t) A) : Within Scanned (peek >>= g) A := by
  intro ts hts
  have hrun (more : List Token) :
      (peek >>= g) (ts ++ more) = g (ts.headD lastToken) (ts ++ more) := by
    cases hts <;> rfl
  cases h (ts.headD lastToken) hts with
  | done a hrest hleft h => exact .done a hrest hleft fun more ↦ (hrun more).trans (h more)
  | failed cause hrest h => exact .failed cause hrest fun more ↦ (hrun more).trans (h more)

/-- A token is taken if it passes a test, which the end of the input does not. -/
theorem within_ifNext {C : Token → Prop} [DecidablePred C]
    (hend : ∀ offset, ¬ C ⟨.endOfInput, "", offset⟩) (hyes : ∀ t, Within Scanned (g t) A)
    (hno : Within Scanned q A) :
    Within Scanned (peek >>= fun t ↦ if C t then next >>= fun _ ↦ g t else q) A := by
  intro ts hts
  have hrun (more : List Token) :
      (peek >>= fun t ↦ if C t then next >>= fun _ ↦ g t else q) (ts ++ more) =
        if C (ts.headD lastToken) then g (ts.headD lastToken) (ts.tail ++ more)
        else q (ts ++ more) := by
    cases hts <;> exact apply_ite (fun p : Parser α ↦ p _) _ _ _
  by_cases hC : C (ts.headD lastToken)
  · simp only [if_pos hC] at hrun
    cases hts with
    | last offset => exact absurd hC (hend offset)
    | @cons t ts _ hts =>
      cases hyes t hts with
      | done a hrest hleft h =>
        exact .done a (hrest.trans (List.suffix_cons t ts)) hleft fun more ↦
          (hrun more).trans (h more)
      | failed cause hrest h =>
        exact .failed cause (hrest.trans (List.suffix_cons t ts)) fun more ↦
          (hrun more).trans (h more)
  · simp only [if_neg hC] at hrun
    cases hno hts with
    | done a hrest hleft h => exact .done a hrest hleft fun more ↦ (hrun more).trans (h more)
    | failed cause hrest h => exact .failed cause hrest fun more ↦ (hrun more).trans (h more)

theorem within_expect {kind : Kind} (hkind : kind ≠ .endOfInput) :
    Within Scanned (expect kind) Scanned :=
  within_next (fun _ ↦ ⟨_, if_neg hkind.symm⟩) fun _ ↦ .ite (within_pure _) (within_unexpected _ _)

theorem within_expectKeyword (word : String) : Within Scanned (expectKeyword word) Scanned :=
  within_next (fun _ ↦ ⟨_, rfl⟩) fun _ ↦ .ite (within_pure _) (within_unexpected _ _)

theorem within_eatIf {test : Token → Bool}
    (hend : ∀ offset, test ⟨.endOfInput, "", offset⟩ = false) :
    Within Scanned (eatIf test) Scanned :=
  within_ifNext (fun offset ↦ Bool.eq_false_iff.mp (hend offset)) (fun _ ↦ within_pure _)
    (within_pure _)

theorem within_eat {kind : Kind} (hkind : kind ≠ .endOfInput) :
    Within Scanned (eat kind) Scanned :=
  within_eatIf fun _ ↦ decide_eq_false hkind.symm

theorem within_eatKeyword (word : String) : Within Scanned (eatKeyword word) Scanned :=
  within_eatIf fun _ ↦ rfl

/-- The end of the input is taken where it is asked for, and then there is nothing left. -/
theorem within_expect_endOfInput : Within Scanned (expect .endOfInput) Spent := by
  intro ts hts
  cases hts with
  | last offset => exact .done "" List.nil_suffix rfl fun _ ↦ rfl
  | @cons t ts ht hts =>
    exact .failed _ (List.suffix_cons t ts) fun more ↦
      congrFun (if_neg ht.kind_ne : _ = unexpected t _) (ts ++ more)

/-! ### Lists of elements -/

theorem within_chain {element : Parser α} {test : Token → Bool} (hlocal : Local element)
    (helement : Within Scanned element Scanned)
    (hend : ∀ offset, test ⟨.endOfInput, "", offset⟩ = false) :
    Within Scanned (chain element (eatIf test)) Scanned := by
  intro ts hts
  -- The list behind a separator begins with fewer tokens.
  induction hlength : ts.length using Nat.strongRecOn generalizing ts with
  | ind length ih =>
    subst hlength
    rw [chain_eq hlocal (hend 0)]
    refine (helement hts).bind fun a mid hmid hleft ↦
      (within_eatIf hend hleft).bind fun more rest hrest hleft ↦ ?_
    cases more with
    | false => exact within_pure _ hleft
    | true =>
      have hle := hlocal.length_le hmid
      have hlt := length_lt_of_eatIf (hend 0) hrest
      exact (ih _ (by omega) hleft rfl).bind fun _ _ _ hleft ↦ within_pure _ hleft

/-! ## Rounds of a list -/

/-- An answer leaves so many tokens fewer, or still fewer. -/
def Shortens (n : Nat) (p : Parser α) : Prop :=
  ∀ ⦃ts a rest⦄, p ts = .done a rest → rest.length + n ≤ ts.length

variable {n : Nat}

theorem Local.shortens (h : Local p) : Shortens 0 p :=
  fun _ _ _ ↦ h.length_le

theorem Shortens.keeps (h : Shortens n p) : Shortens 0 p :=
  fun _ _ _ hdone ↦ Nat.le_trans (Nat.le_add_right _ n) (h hdone)

theorem shortens_pure (a : α) : Shortens 0 (pure a) :=
  (local_pure a).shortens

theorem shortens_fail (cause : SyntaxError.Cause) : Shortens n (fail cause : Parser α) :=
  nofun

theorem Shortens.bind (hp : Shortens n p) (hf : ∀ a, Shortens 0 (f a)) : Shortens n (p >>= f) := by
  intro ts b rest h
  rw [bind_apply] at h
  cases hmid : p ts with
  | failed cause mid => rw [hmid] at h; cases h
  | done a mid =>
    rw [hmid] at h
    have hle := hp hmid
    have hle' := hf a h
    omega

theorem Shortens.ite {c : Prop} [Decidable c] (hp : Shortens n p) (hq : Shortens n q) :
    Shortens n (if c then p else q) := by
  by_cases h : c
  · rwa [if_pos h]
  · rwa [if_neg h]

/-- A parser that takes a token, and not the one behind all others, takes a token of the text. -/
theorem shortens_next (hlast : ∃ cause, g lastToken = fail cause) (h : ∀ t, Shortens 0 (g t)) :
    Shortens 1 (next >>= g) := by
  intro ts a rest hdone
  cases ts with
  | nil =>
    obtain ⟨cause, hcause⟩ := hlast
    exact absurd ((congrFun hcause []).symm.trans hdone) nofun
  | cons t ts => exact Nat.succ_le_succ (h t hdone)

theorem shortens_expect {kind : Kind} (hkind : kind ≠ .endOfInput) : Shortens 1 (expect kind) :=
  shortens_next ⟨_, if_neg hkind.symm⟩ fun _ ↦ .ite (shortens_pure _) (shortens_fail _)

/-- Each round of a list that goes on takes two tokens: one for the element, whatever it is, and the
separator. So the rounds come to an end without being counted. -/
structure Advances (element : Parser α) (separator : Parser Bool) : Prop where
  /-- The count is no part of what is parsed. -/
  unrolled : chain element separator = element >>= fun a ↦ separator >>= fun more ↦
    if more then chain element separator >>= fun as ↦ pure (a :: as) else pure [a]
  /-- A round ends with the separator. -/
  element_separator {ts mid rest : List Token} {a : α} (helement : element ts = .done a mid)
    (hseparator : separator mid = .done true rest) : rest.length + 2 ≤ ts.length
  /-- A round begins with the separator. -/
  separator_element {ts mid rest : List Token} {a : α} (hseparator : separator ts = .done true mid)
    (helement : element mid = .done a rest) : rest.length + 2 ≤ ts.length

theorem advances {element : Parser α} {test : Token → Bool} (hlocal : Local element)
    (helement : Shortens 1 element) (hlast : test lastToken = false) :
    Advances element (eatIf test) where
  unrolled := chain_eq hlocal hlast
  element_separator hdone hmore := by
    have hle := helement hdone
    have hlt := length_lt_of_eatIf hlast hmore
    omega
  separator_element hmore hdone := by
    have hlt := length_lt_of_eatIf hlast hmore
    have hle := helement hdone
    omega

end Parser

/-! ## Clauses -/

namespace Statement

open ItemSql.Parser

theorem within_identifier : Within Scanned identifier Scanned :=
  within_expect nofun

theorem within_literal : Within Scanned literal Scanned := by
  refine within_next (fun _ ↦ ⟨_, rfl⟩) fun t ↦ ?_
  obtain ⟨kind, text, offset⟩ := t
  cases kind with
  | string | number => exact within_pure _
  | _ => exact within_unexpected _ _

/-- The end of the input is the last token that is taken. -/
theorem within_finish : Within Scanned finish Spent :=
  (within_eat (by decide)).bind fun _ ↦ within_expect_endOfInput.bind fun _ ↦ within_pure _

theorem within_comparison : Within Scanned comparison Scanned := by
  refine within_next (fun _ ↦ ⟨_, rfl⟩) fun t ↦ .ite ?_ (within_unexpected _ _)
  cases ComparisonOperator.ofSymbol? t.text with
  | some op => exact within_pure _
  | none => exact within_unexpected _ _

theorem within_equals : Within Scanned equals Scanned :=
  within_next (fun _ ↦ ⟨_, rfl⟩) fun _ ↦ .ite (within_pure _) (within_unexpected _ _)

theorem within_literalPair : Within Scanned literalPair Scanned :=
  (within_expect (by decide)).bind fun _ ↦
  within_literal.bind fun _ ↦
  (within_expect (by decide)).bind fun _ ↦
  within_literal.bind fun _ ↦
  (within_expect (by decide)).bind fun _ ↦
  within_pure _

theorem within_expression : Within Scanned expression Scanned := by
  refine within_identifier.bind fun name ↦ within_comparison.bind fun op ↦ ?_
  have hsingle : Within Scanned ((fun value ↦ [value]) <$> literal) Scanned :=
    within_literal.bind fun _ ↦ within_pure _
  exact .ite (within_literalPair.bind fun _ ↦ within_pure _) (hsingle.bind fun _ ↦ within_pure _)

theorem within_assignment : Within Scanned assignment Scanned :=
  within_identifier.bind fun _ ↦ within_equals.bind fun _ ↦
  within_literal.bind fun _ ↦ within_pure _

theorem within_commaList {α : Type} {element : Parser α} (hlocal : Local element)
    (h : Within Scanned element Scanned) : Within Scanned (chain element comma) Scanned :=
  within_chain hlocal h fun _ ↦ rfl

theorem within_conjunctionList {α : Type} {element : Parser α} (hlocal : Local element)
    (h : Within Scanned element Scanned) : Within Scanned (chain element conjunction) Scanned :=
  within_chain hlocal h fun _ ↦ rfl

theorem within_parenthesized {α : Type} {element : Parser α} (hlocal : Local element)
    (h : Within Scanned element Scanned) : Within Scanned (parenthesized element) Scanned :=
  (within_expect (by decide)).bind fun _ ↦
  (within_commaList hlocal h).bind fun _ ↦
  (within_expect (by decide)).bind fun _ ↦
  within_pure _

/-! ## Queries -/

theorem within_limit (given? : Option Int32) : Within Scanned (limit given?) Scanned := by
  refine within_ifNext (fun _ ↦ nofun) (fun t ↦ .ite (within_unexpected _ _) ?_) (within_pure _)
  refine (within_expect (by decide)).bind fun value ↦ ?_
  cases Decimal.int32? value with
  | none => exact within_fail _
  | some n => exact .ite (within_pure _) (within_fail _)

theorem within_columns : Within Scanned columns Scanned := by
  refine (within_eat (by decide)).bind fun _ ↦ .ite (within_pure _) ?_
  exact within_peek fun _ ↦
    .ite (within_pure _) (within_commaList local_identifier within_identifier)

theorem within_conditions : Within Scanned conditions Scanned := by
  refine (within_eatKeyword _).bind fun _ ↦ .ite ?_ (within_pure _)
  exact (within_conjunctionList local_expression within_expression).bind fun _ ↦ within_pure _

theorem within_order : Within Scanned order Scanned := by
  refine (within_eatKeyword _).bind fun _ ↦ .ite ?_ (within_pure _)
  refine (within_expectKeyword _).bind fun _ ↦ within_identifier.bind fun _ ↦ ?_
  refine (within_eatKeyword _).bind fun _ ↦ .ite (within_pure _) ?_
  exact (within_eatKeyword _).bind fun _ ↦ within_pure _

theorem within_select : Within Scanned select Spent :=
  within_columns.bind fun _ ↦
  (within_expectKeyword _).bind fun _ ↦
  within_identifier.bind fun _ ↦
  (within_limit _).bind fun _ ↦
  within_conditions.bind fun _ ↦
  within_order.bind fun _ ↦
  (within_limit _).bind fun _ ↦
  within_finish.bind fun _ ↦
  within_pure _

/-! ## Items -/

theorem within_insert : Within Scanned insert Spent :=
  (within_expectKeyword _).bind fun _ ↦
  within_identifier.bind fun _ ↦
  (within_parenthesized local_identifier within_identifier).bind fun _ ↦
  (within_expectKeyword _).bind fun _ ↦
  (within_parenthesized local_literal within_literal).bind fun _ ↦
  within_finish.bind fun _ ↦
  .ite (within_pure _) (within_fail _)

theorem within_update : Within Scanned update Spent :=
  within_identifier.bind fun _ ↦
  (within_expectKeyword _).bind fun _ ↦
  (within_commaList local_assignment within_assignment).bind fun _ ↦
  (within_expectKeyword _).bind fun _ ↦
  (within_conjunctionList local_assignment within_assignment).bind fun _ ↦
  within_finish.bind fun _ ↦
  within_pure _

theorem within_delete : Within Scanned delete Spent :=
  (within_expectKeyword _).bind fun _ ↦
  within_identifier.bind fun _ ↦
  (within_expectKeyword _).bind fun _ ↦
  (within_chain local_assignment within_assignment fun _ ↦ rfl).bind fun _ ↦
  within_finish.bind fun _ ↦
  within_pure _

/-! ## Tables -/

theorem within_drop : Within Scanned drop Spent :=
  (within_expectKeyword _).bind fun _ ↦
  within_identifier.bind fun _ ↦
  within_finish.bind fun _ ↦
  within_pure _

theorem within_typeWord : Within Scanned typeWord Scanned := by
  refine within_next (fun _ ↦ ⟨_, rfl⟩) fun t ↦ .ite ?_ (within_unexpected _ _)
  cases AttributeType.ofWord? t.text with
  | some type => exact within_pure _
  | none => exact within_unexpected _ _

theorem within_keyConstraint : Within Scanned keyConstraint Scanned := by
  refine within_ifNext (fun _ ↦ nofun) (fun t ↦ ?_) (within_pure _)
  cases KeyType.ofConstraint? t.text with
  | some type => exact within_pure _
  | none => exact within_unexpected _ _

theorem within_declaration : Within Scanned declaration Scanned :=
  within_identifier.bind fun _ ↦ within_typeWord.bind fun _ ↦
  within_keyConstraint.bind fun _ ↦ within_pure _

/-- Any token is taken for a number, but the text of the end of the input is none. -/
theorem within_capacity : Within Scanned capacity Scanned := by
  refine within_identifier.bind fun name ↦ within_equals.bind fun _ ↦ ?_
  refine within_next (fun _ ↦ ⟨_, rfl⟩) fun t ↦ ?_
  cases Decimal.int64? t.text with
  | none => exact within_fail _
  | some units => exact .ite (within_pure _) (.ite (within_pure _) (within_fail _))

theorem within_throughput : Within Scanned throughput Scanned := by
  refine (within_eatKeyword _).bind fun _ ↦ .ite ?_ (within_pure _)
  exact (within_parenthesized local_capacity within_capacity).bind fun _ ↦ within_pure _

theorem within_create : Within Scanned create Spent :=
  (within_expectKeyword _).bind fun _ ↦
  within_identifier.bind fun _ ↦
  (within_parenthesized local_declaration within_declaration).bind fun _ ↦
  within_throughput.bind fun _ ↦
  within_finish.bind fun _ ↦
  within_pure _

/-! ## Statements -/

theorem within_statement : Within Scanned statement Spent :=
  within_next (fun _ ↦ ⟨_, rfl⟩) fun _ ↦
    .ite within_select <| .ite within_insert <| .ite within_update <| .ite within_create <|
    .ite within_delete <| .ite within_drop <| within_fail _

/-! ### The lists of a statement -/

/-- The lists that are read in rounds: an element and the separator behind it. -/
inductive Loop : ∀ {α : Type}, Parser α → Parser Bool → Prop
  /-- The columns of a query, and those of an insertion. -/
  | names : Loop identifier comma
  | values : Loop literal comma
  | conditions : Loop expression conjunction
  | assignments : Loop assignment comma
  /-- The key of an update. -/
  | key : Loop assignment conjunction
  /-- The key of a deletion. -/
  | deletedKey : Loop assignment (eatKeyword "and")
  | declarations : Loop declaration comma
  | capacities : Loop capacity comma

theorem shortens_identifier : Shortens 1 identifier :=
  shortens_expect (by decide)

theorem shortens_literal : Shortens 1 literal := by
  refine shortens_next ⟨_, rfl⟩ fun t ↦ ?_
  obtain ⟨kind, text, offset⟩ := t
  cases kind with
  | string | number => exact shortens_pure _
  | _ => exact shortens_fail _

theorem shortens_expression : Shortens 1 expression := by
  refine shortens_identifier.bind fun name ↦ local_comparison.shortens.bind fun op ↦ ?_
  have hsingle : Shortens 0 ((fun value ↦ [value]) <$> literal) :=
    shortens_literal.keeps.bind fun _ ↦ shortens_pure _
  exact .ite (local_literalPair.shortens.bind fun _ ↦ shortens_pure _)
    (hsingle.bind fun _ ↦ shortens_pure _)

theorem shortens_assignment : Shortens 1 assignment :=
  shortens_identifier.bind fun _ ↦ local_equals.shortens.bind fun _ ↦
  shortens_literal.keeps.bind fun _ ↦ shortens_pure _

theorem shortens_declaration : Shortens 1 declaration :=
  shortens_identifier.bind fun _ ↦ local_typeWord.shortens.bind fun _ ↦
  local_keyConstraint.shortens.bind fun _ ↦ shortens_pure _

theorem shortens_capacity : Shortens 1 capacity := by
  refine shortens_identifier.bind fun name ↦ local_equals.shortens.bind fun _ ↦ ?_
  refine (shortens_next ⟨_, rfl⟩ fun t ↦ ?_).keeps
  cases Decimal.int64? t.text with
  | none => exact shortens_fail _
  | some units => exact .ite (shortens_pure _) (.ite (shortens_pure _) (shortens_fail _))

theorem Loop.advances {α : Type} {element : Parser α} {separator : Parser Bool}
    (h : Loop element separator) : Advances element separator := by
  cases h with
  | names => exact Parser.advances local_identifier shortens_identifier rfl
  | values => exact Parser.advances local_literal shortens_literal rfl
  | conditions => exact Parser.advances local_expression shortens_expression rfl
  | assignments => exact Parser.advances local_assignment shortens_assignment rfl
  | key => exact Parser.advances local_assignment shortens_assignment rfl
  | deletedKey => exact Parser.advances local_assignment shortens_assignment rfl
  | declarations => exact Parser.advances local_declaration shortens_declaration rfl
  | capacities => exact Parser.advances local_capacity shortens_capacity rfl

/-! ### The tokens of a text -/

variable {source : String} {ts : List Token}

/-- The first tokens that the stream of a text hands out. -/
def supply (source : String) (count : Nat) : List Token :=
  (List.range count).map (handedOut source)

theorem getElem?_scan {source : String} {i : Nat} (hi : i < (scan source).length) :
    (scan source)[i]? = some (handedOut source i) := by
  have hmin : min i ((scan source).length - 1) = i := Nat.min_eq_left (Nat.le_sub_one_of_lt hi)
  have hget := Stream.getElem?_handedOut source i
  rwa [hmin] at hget

theorem supply_length (source : String) : supply source (scan source).length = scan source := by
  refine List.ext_getElem? fun i ↦ ?_
  rw [supply, List.getElem?_map]
  rcases Nat.lt_or_ge i (scan source).length with hlt | hge
  · rw [List.getElem?_range hlt, getElem?_scan hlt]
    rfl
  · rw [List.getElem?_eq_none hge, List.getElem?_eq_none (by rwa [List.length_range])]
    rfl

/-- What is supplied begins with the tokens of the text. -/
theorem exists_supply_eq {count : Nat} (h : (scan source).length ≤ count) :
    ∃ more, supply source count = scan source ++ more := by
  obtain ⟨extra, rfl⟩ := Nat.exists_eq_add_of_le h
  exact ⟨_, by
    rw [supply, List.range_add, List.map_append]
    exact congrArg (· ++ _) (supply_length source)⟩

/-- The end of the input is the last token of a text. -/
theorem eq_of_endOfInput (hts : Scanned ts) {i : Nat} {t : Token} (ht : ts[i]? = some t)
    (hkind : t.kind = .endOfInput) : i + 1 = ts.length := by
  induction hts generalizing i with
  | last offset =>
    cases i with
    | zero => rfl
    | succ i => cases ht
  | @cons t' ts ht' hts ih =>
    cases i with
    | zero => exact absurd ((congrArg Token.kind (Option.some.inj ht)).trans hkind) ht'.kind_ne
    | succ i => exact congrArg (· + 1) (ih ht)

/-- So many tokens are taken of a text until the parser answers or fails. -/
structure Spends (source : String) (calls : Nat) : Prop where
  le : calls ≤ (scan source).length
  /-- However long the stream goes on, this is what is taken of it. -/
  taken : ∀ ⦃count⦄, (scan source).length ≤ count → statement (supply source count) =
    (statement (scan source)).leaving ((supply source count).drop calls)
  /-- The end of the input is taken at last, if at all. -/
  last : ∀ ⦃i⦄, i < calls → (handedOut source i).kind = .endOfInput → i + 1 = calls
  /-- Nothing is answered before all tokens are taken. -/
  all : ∀ ⦃r⦄, parse source = .ok r → calls = (scan source).length

/-- The tokens of a text are enough for a parse of it, and each of them is taken once at most. -/
structure Budgeted (source : String) : Prop where
  spends : ∃ calls, Spends source calls
  loops : ∀ {α : Type} {element : Parser α} {separator : Parser Bool},
    Loop element separator → Advances element separator

/-- A parser that leaves a part of the tokens has taken those before it. -/
theorem drop_supply {rest more : List Token} {count : Nat} (hrest : rest <:+ scan source)
    (hsupply : supply source count = scan source ++ more) :
    (supply source count).drop ((scan source).length - rest.length) = rest ++ more := by
  rw [hsupply, List.drop_append_of_le_length (Nat.sub_le _ _),
    ← List.suffix_iff_eq_drop.mp hrest]

/-- **The budget of a parse.** A parse takes each token of the text once at most, in order, and none
behind the end of the input. A parse that succeeds takes them all. Every list is read in rounds of
two tokens or more. -/
theorem budgeted_parse (source : String) : Budgeted source := by
  refine ⟨?_, Loop.advances⟩
  have hscanned := scanned_scan source
  obtain ⟨rest, hrest, hrun, hspent⟩ := (within_statement hscanned).exists_left
  refine ⟨(scan source).length - rest.length, Nat.sub_le _ _, fun count hcount ↦ ?_,
    fun i hi hkind ↦ ?_, fun r hr ↦ ?_⟩
  · obtain ⟨more, hmore⟩ := exists_supply_eq hcount
    rw [drop_supply hrest hmore, hmore, hrun]
  · have hlt : i < (scan source).length := by omega
    have hend := eq_of_endOfInput hscanned (getElem?_scan hlt) hkind
    omega
  · rw [parse] at hr
    cases hdone : statement (scan source) with
    | failed cause left => rw [hdone] at hr; cases hr
    | done r' left => rw [hspent hdone]; rfl

end Statement

end ItemSql
