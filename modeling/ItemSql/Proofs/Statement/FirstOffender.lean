import Mathlib.Data.List.Basic
import ItemSql.Proofs.Statement.Reads
import ItemSql.Statement.Parse

/-!
# Errors name the first token that offends

A text is refused at the first token that the grammar does not accept, and that token is what the
error names: nothing behind it is asked, and every text with the same tokens up to it is refused for
the same cause (`firstOffender_of_parse`). Only an insertion that has fewer values than columns, or
more, is refused for what it says as a whole.

A parser looks one token ahead, so what it answers is settled by the tokens that it takes and one
more. A failure must be settled by less, since the token that is refused is taken already. It is
therefore not enough to follow one parser. `Settled past p ts` says what comes of `p` behind the
symbols of `past`, and a cause is judged by all that was taken, by whichever parser. A throughput,
which is refused with its name, is refused two tokens behind it.
-/

namespace ItemSql

open Token

/-- What the cause names is at the end of the symbols that were taken. -/
inductive SyntaxError.Cause.Blames : Cause → List Symbol → Prop
  | unexpectedToken (w : List Symbol) (s : Symbol) (expected : Expected) :
      Blames (.unexpectedToken s.text s.kind expected) (w ++ [s])
  | unknownStatement (s : Symbol) : Blames (.unknownStatement s.text) [s]
  | invalidLimit (w : List Symbol) (s : Symbol) (hs : s.kind = .number) :
      Blames (.invalidLimit s.text) (w ++ [s])
  | invalidThroughput (w : List Symbol) (name value : Symbol) (hname : name.kind = .identifier) :
      Blames (.invalidThroughput name.text value.text) (w ++ [name, ⟨.operator, "="⟩, value])

namespace Parser

variable {α β : Type} {p q : Parser α} {f : α → Parser β} {g : Token → Parser α}
  {past : List Symbol} {ts ts' : List Token} {m n : Nat}

/-! ## Tokens that are taken -/

/-- The symbols of so many tokens. The end of the input is taken again and again. -/
def taken : Nat → List Token → List Symbol
  | 0, _ => []
  | n + 1, ts => (ts.headD lastToken).symbol :: taken n ts.tail

theorem taken_add (m n : Nat) (ts : List Token) :
    taken (m + n) ts = taken m ts ++ taken n (ts.drop m) := by
  induction m generalizing ts with
  | zero => rw [Nat.zero_add, List.drop_zero, taken, List.nil_append]
  | succ m ih =>
    rw [Nat.succ_add, taken, taken, ih, List.drop_tail, List.cons_append]

theorem length_taken (n : Nat) (ts : List Token) : (taken n ts).length = n := by
  induction n generalizing ts with
  | zero => rfl
  | succ n ih => rw [taken, List.length_cons, ih]

/-- Where the same symbols are taken, fewer of them are the same, and so are those behind. -/
theorem taken_inj (h : taken (m + n) ts' = taken (m + n) ts) :
    taken m ts' = taken m ts ∧ taken n (ts'.drop m) = taken n (ts.drop m) := by
  rw [taken_add, taken_add] at h
  refine List.append_inj h ?_
  rw [length_taken, length_taken]

/-- The place of the token is not asked. -/
def Placeless {γ : Sort _} (g : Token → γ) : Prop :=
  ∀ kind text offset offset', g ⟨kind, text, offset⟩ = g ⟨kind, text, offset'⟩

theorem next_apply (ts : List Token) : next ts = .done (ts.headD lastToken) ts.tail := by
  cases ts <;> rfl

/-! ## What is settled -/

/-- What comes of a parser behind these symbols is settled by the tokens that it takes: an answer by
them and the next one, a failure by them alone. The number of columns is not asked. -/
inductive Settled (past : List Symbol) (p : Parser α) (ts : List Token) : Prop
  | done (n : Nat) (a : α)
      (h : ∀ ts', taken (n + 1) ts' = taken (n + 1) ts → p ts' = .done a (ts'.drop n))
  | failed (n : Nat) (cause : SyntaxError.Cause) (hcause : cause.Blames (past ++ taken (n + 1) ts))
      (h : ∀ ts', taken (n + 1) ts' = taken (n + 1) ts → p ts' = .failed cause (ts'.drop (n + 1)))
  | mismatch (columns values : Nat) (rest : List Token)
      (h : p ts = .failed (.columnCountMismatch columns values) rest)

/-- What comes of the parser is settled by the tokens that it takes, wherever it stands. -/
def Local (p : Parser α) : Prop :=
  ∀ past ts, Settled past p ts

/-- What a parser does right behind a token: it goes on, or it refuses this token. -/
inductive Behind (past : List Symbol) (ts : List Token) : Parser α → Prop
  | settled {p : Parser α} (h : Settled past p ts) : Behind past ts p
  | refused {cause : SyntaxError.Cause} (h : cause.Blames past) : Behind past ts (fail cause)

theorem local_pure (a : α) : Local (pure a) :=
  fun _ _ ↦ .done 0 a fun _ _ ↦ rfl

theorem Local.behind (h : Local p) : Behind past ts p :=
  .settled (h past ts)

theorem behind_unexpected (w : List Symbol) (t : Token) (expected : Expected) :
    Behind (w ++ [t.symbol]) ts (unexpected t expected : Parser α) :=
  .refused (.unexpectedToken w t.symbol expected)

theorem Behind.ite {c : Prop} [Decidable c] (hp : c → Behind past ts p)
    (hq : ¬ c → Behind past ts q) : Behind past ts (if c then p else q) := by
  by_cases h : c
  · rw [if_pos h]
    exact hp h
  · rw [if_neg h]
    exact hq h

theorem Local.ite {c : Prop} [Decidable c] (hp : Local p) (hq : Local q) :
    Local (if c then p else q) := by
  by_cases h : c
  · rwa [if_pos h]
  · rwa [if_neg h]

/-! ### One thing and then another -/

theorem Settled.bind (hp : Settled past p ts)
    (hf : ∀ n a, p ts = .done a (ts.drop n) → Settled (past ++ taken n ts) (f a) (ts.drop n)) :
    Settled past (p >>= f) ts := by
  cases hp with
  | failed n cause hcause h =>
    exact .failed n cause hcause fun ts' hts ↦ by rw [bind_apply, h ts' hts]
  | mismatch columns values rest h => exact .mismatch columns values rest (by rw [bind_apply, h])
  | done n a h =>
    -- The second parser takes a token, or answers after looking at one: the first one has looked
    -- no further.
    have hrun {m : Nat} {ts' : List Token} (hts : taken (n + (m + 1)) ts' = taken (n + (m + 1)) ts) :
        (p >>= f) ts' = f a (ts'.drop n) := by
      have hsplit : n + (m + 1) = n + 1 + m := by omega
      rw [hsplit] at hts
      rw [bind_apply, h ts' (taken_inj hts).1]
    cases hf n a (h ts rfl) with
    | done m b h' =>
      refine .done (n + m) b fun ts' hts ↦ ?_
      rw [Nat.add_assoc] at hts
      rw [hrun hts, h' _ (taken_inj hts).2, List.drop_drop]
    | failed m cause hcause h' =>
      refine .failed (n + m) cause ?_ fun ts' hts ↦ ?_
      · rwa [Nat.add_assoc, taken_add, ← List.append_assoc]
      · rw [Nat.add_assoc] at hts
        rw [hrun hts, h' _ (taken_inj hts).2, List.drop_drop, Nat.add_assoc]
    | mismatch columns values rest h' =>
      exact .mismatch columns values rest ((hrun (m := 0) rfl).trans h')

theorem Local.bind (hp : Local p) (hf : ∀ a, Local (f a)) : Local (p >>= f) :=
  fun past ts ↦ (hp past ts).bind fun _ a _ ↦ hf a _ _

/-- A token is known by its symbol, where its place is not asked. -/
theorem Placeless.eq_of_taken (hplace : Placeless g) (h : taken (n + 1) ts' = taken (n + 1) ts) :
    g (ts'.headD lastToken) = g (ts.headD lastToken) := by
  have hhead := (List.cons.inj h).1
  generalize ts'.headD lastToken = t' at hhead ⊢
  generalize ts.headD lastToken = t at hhead ⊢
  obtain ⟨kind, text, offset⟩ := t
  obtain ⟨kind', text', offset'⟩ := t'
  obtain ⟨rfl, rfl⟩ := Symbol.mk.inj hhead
  exact hplace _ _ _ _

/-- A token is taken, and what comes behind it may refuse it. -/
theorem settled_next (hplace : Placeless g)
    (h : Behind (past ++ [(ts.headD lastToken).symbol]) ts.tail (g (ts.headD lastToken))) :
    Settled past (next >>= g) ts := by
  have hrun {n : Nat} {ts' : List Token} (hts : taken (n + 1) ts' = taken (n + 1) ts) :
      (next >>= g) ts' = g (ts.headD lastToken) ts'.tail := by
    rw [bind_apply, next_apply, ← hplace.eq_of_taken hts]
  generalize hq : g (ts.headD lastToken) = q at h hrun
  cases h with
  | @refused cause hcause =>
    refine .failed 0 cause hcause fun ts' hts ↦ ?_
    rw [hrun hts, fail, List.drop_one]
  | settled h =>
    cases h with
    | done n a h =>
      refine .done (n + 1) a fun ts' hts ↦ ?_
      rw [hrun hts, h _ (List.cons.inj hts).2, List.drop_tail]
    | failed n cause hcause h =>
      refine .failed (n + 1) cause ?_ fun ts' hts ↦ ?_
      · rwa [List.append_assoc] at hcause
      · rw [hrun hts, h _ (List.cons.inj hts).2, List.drop_tail]
    | mismatch columns values rest h =>
      exact .mismatch columns values rest ((hrun (n := 0) rfl).trans h)

theorem settled_peek (hplace : Placeless g) (h : Settled past (g (ts.headD lastToken)) ts) :
    Settled past (peek >>= g) ts := by
  have hrun {n : Nat} {ts' : List Token} (hts : taken (n + 1) ts' = taken (n + 1) ts) :
      (peek >>= g) ts' = g (ts.headD lastToken) ts' :=
    congrFun (hplace.eq_of_taken hts) ts'
  cases h with
  | done n a h => exact .done n a fun ts' hts ↦ (hrun hts).trans (h ts' hts)
  | failed n cause hcause h =>
    exact .failed n cause hcause fun ts' hts ↦ (hrun hts).trans (h ts' hts)
  | mismatch columns values rest h =>
    exact .mismatch columns values rest ((hrun (n := 0) rfl).trans h)

/-! ### Single tokens -/

theorem local_next (hplace : Placeless g)
    (h : ∀ past t ts, Behind (past ++ [t.symbol]) ts (g t)) : Local (next >>= g) :=
  fun past _ ↦ settled_next hplace (h past _ _)

theorem local_peek (hplace : Placeless g) (h : ∀ t, Local (g t)) : Local (peek >>= g) :=
  fun past ts ↦ settled_peek hplace (h _ past ts)

/-- A token is taken if it passes a test, and what comes behind it may refuse it. -/
theorem settled_ifNext {C : Token → Prop} [DecidablePred C]
    (hplace : Placeless g) (htest : Placeless C)
    (hyes : C (ts.headD lastToken) →
      Behind (past ++ [(ts.headD lastToken).symbol]) ts.tail (g (ts.headD lastToken)))
    (hno : ¬ C (ts.headD lastToken) → Settled past q ts) :
    Settled past (peek >>= fun t ↦ if C t then next >>= fun _ ↦ g t else q) ts := by
  -- The token that was looked at is the one that is taken.
  have htake : (peek >>= fun t ↦ if C t then next >>= fun _ ↦ g t else q) =
      peek >>= fun t ↦ if C t then next >>= g else q := by
    funext ts
    change (if C (ts.headD lastToken) then _ else _ : Parser α) ts =
      (if C (ts.headD lastToken) then _ else _ : Parser α) ts
    by_cases h : C (ts.headD lastToken)
    · rw [if_pos h, if_pos h, bind_apply, bind_apply, next_apply]
    · rw [if_neg h, if_neg h]
  rw [htake]
  refine settled_peek (fun kind text offset offset' ↦ ?_) ?_
  · have hC := htest kind text offset offset'
    by_cases h : C ⟨kind, text, offset⟩
    · rw [if_pos h, if_pos (hC ▸ h)]
    · rw [if_neg h, if_neg (hC ▸ h)]
  · by_cases h : C (ts.headD lastToken)
    · rw [if_pos h]
      exact settled_next hplace (hyes h)
    · rw [if_neg h]
      exact hno h

theorem local_expect (kind : Kind) : Local (expect kind) :=
  local_next (fun _ _ _ _ ↦ rfl) fun _ t _ ↦
    .ite (fun _ ↦ (local_pure _).behind) fun _ ↦ behind_unexpected _ t _

theorem local_expectKeyword (word : String) : Local (expectKeyword word) :=
  local_next (fun _ _ _ _ ↦ rfl) fun _ t _ ↦
    .ite (fun _ ↦ (local_pure _).behind) fun _ ↦ behind_unexpected _ t _

theorem settled_eatIf {test : Token → Bool} {f : Bool → Parser α} (htest : Placeless test)
    (hyes : test (ts.headD lastToken) = true →
      Settled (past ++ [(ts.headD lastToken).symbol]) (f true) ts.tail)
    (hno : test (ts.headD lastToken) = false → Settled past (f false) ts) :
    Settled past (eatIf test >>= f) ts := by
  rw [eatIf_bind]
  refine settled_ifNext (fun _ _ _ _ ↦ rfl) (fun _ _ _ _ ↦ by rw [htest]) ?_ ?_
  · exact fun h ↦ .settled (hyes h)
  · exact fun h ↦ hno (Bool.eq_false_iff.mpr h)

theorem local_eatIf {test : Token → Bool} (htest : Placeless test) : Local (eatIf test) := by
  intro past ts
  rw [← bind_pure (eatIf test)]
  exact settled_eatIf htest (fun _ ↦ local_pure _ _ _) fun _ ↦ local_pure _ _ _

theorem local_eat (kind : Kind) : Local (eat kind) :=
  local_eatIf fun _ _ _ _ ↦ rfl

theorem local_eatKeyword (word : String) : Local (eatKeyword word) :=
  local_eatIf fun _ _ _ _ ↦ rfl

/-- A token that is taken or refused, and what comes behind it. -/
theorem next_ite_bind {C : Token → Prop} [DecidablePred C] (read : Token → α) (expected : Expected)
    (f : α → Parser β) :
    (next >>= fun t ↦ if C t then pure (read t) else unexpected t expected) >>= f =
      next >>= fun t ↦ if C t then f (read t) else unexpected t expected := by
  rw [bind_assoc]
  congr
  funext t
  by_cases h : C t
  · rw [if_pos h, if_pos h, pure_bind]
  · rw [if_neg h, if_neg h]
    rfl

/-! ### Lists of elements -/

section Lists

variable {element : Parser α} {test : Token → Bool}

/-- No parser gives tokens back. -/
theorem Local.length_le (h : Local p) {a : α} {rest : List Token} (hdone : p ts = .done a rest) :
    rest.length ≤ ts.length := by
  cases h [] ts with
  | done n b h =>
    rw [h ts rfl] at hdone
    obtain ⟨-, rfl⟩ := Outcome.done.inj hdone
    rw [List.length_drop]
    exact Nat.sub_le _ _
  | failed n cause _ h => rw [h ts rfl] at hdone; cases hdone
  | mismatch columns values rest h => rw [h] at hdone; cases hdone

/-- What comes behind an answer is asked of this answer only. -/
theorem bind_apply_congr {f f' : α → Parser β}
    (h : ∀ a rest, p ts = .done a rest → f a rest = f' a rest) : (p >>= f) ts = (p >>= f') ts := by
  rw [bind_apply, bind_apply]
  cases hp : p ts with
  | done a rest => exact h a rest hp
  | failed cause rest => rfl

/-- A separator is a token of the text. -/
theorem length_tail_lt (hlast : test lastToken = false) (h : test (ts.headD lastToken) = true) :
    ts.tail.length < ts.length := by
  cases ts with
  | nil => exact absurd (hlast.symm.trans h) Bool.false_ne_true
  | cons t ts => exact Nat.lt_succ_self _

theorem length_lt_of_eatIf (hlast : test lastToken = false) {rest : List Token}
    (h : eatIf test ts = .done true rest) : rest.length < ts.length := by
  rw [← bind_pure (eatIf test), eatIf_bind] at h
  change (if test (ts.headD lastToken) = true then _ else _ : Parser Bool) ts = _ at h
  by_cases htest : test (ts.headD lastToken) = true
  · rw [if_pos htest, bind_apply, next_apply] at h
    obtain ⟨-, rfl⟩ := Outcome.done.inj h
    exact length_tail_lt hlast htest
  · rw [if_neg htest] at h
    cases h

/-- As many rounds as there are tokens are enough, since every round but the last one takes a
separator. -/
theorem chainUpTo_succ (helement : Local element) (hlast : test lastToken = false) {rounds : Nat}
    (h : ts.length ≤ rounds) :
    chainUpTo element (eatIf test) (rounds + 1) ts = chainUpTo element (eatIf test) rounds ts := by
  induction rounds generalizing ts with
  | zero =>
    refine bind_apply_congr fun a rest hrest ↦ ?_
    have hle := helement.length_le hrest
    obtain rfl : rest = [] := List.length_eq_zero_iff.mp (by omega)
    rw [eatIf_bind]
    change (if test lastToken = true then _ else _ : Parser (List α)) [] = _
    rw [hlast]
    rfl
  | succ rounds ih =>
    refine bind_apply_congr fun a mid hmid ↦ bind_apply_congr fun more rest hrest ↦ ?_
    have hle := helement.length_le hmid
    cases more with
    | false => rfl
    | true =>
      have hlt := length_lt_of_eatIf hlast hrest
      change (chainUpTo element (eatIf test) (rounds + 1) >>= _) rest =
        (chainUpTo element (eatIf test) rounds >>= _) rest
      rw [bind_apply, bind_apply, ih (by omega)]

theorem chain_eq_chainUpTo (helement : Local element) (hlast : test lastToken = false)
    {rounds : Nat} (h : ts.length ≤ rounds) :
    chain element (eatIf test) ts = chainUpTo element (eatIf test) rounds ts := by
  induction h with
  | refl => rfl
  | step h ih => rw [ih, chainUpTo_succ helement hlast h]

/-- A list is an element, and a list behind the separator if there is one. -/
theorem chain_eq (helement : Local element) (hlast : test lastToken = false) :
    chain element (eatIf test) = element >>= fun a ↦ eatIf test >>= fun more ↦
      if more then chain element (eatIf test) >>= fun as ↦ pure (a :: as) else pure [a] := by
  funext ts
  rw [chain_eq_chainUpTo helement hlast (Nat.le_succ ts.length)]
  refine bind_apply_congr fun a mid hmid ↦ bind_apply_congr fun more rest hrest ↦ ?_
  cases more with
  | false => rfl
  | true =>
    have hle := helement.length_le hmid
    have hlt := length_lt_of_eatIf hlast hrest
    change (chainUpTo element (eatIf test) ts.length >>= _) rest =
      (chain element (eatIf test) >>= _) rest
    have hle' : rest.length ≤ ts.length := by omega
    rw [bind_apply, bind_apply, chain_eq_chainUpTo helement hlast hle']

theorem local_chain (helement : Local element) (hlast : test lastToken = false)
    (htest : Placeless test) : Local (chain element (eatIf test)) := by
  intro past ts
  -- The list behind a separator begins with fewer tokens.
  induction hlength : ts.length using Nat.strongRecOn generalizing past ts with
  | ind length ih =>
    subst hlength
    rw [chain_eq helement hlast]
    refine (helement past ts).bind fun n a hdone ↦ settled_eatIf htest (fun hmore ↦ ?_) fun _ ↦ ?_
    · have hlt := length_tail_lt hlast hmore
      have hle := helement.length_le hdone
      exact (ih _ (by omega) _ _ rfl).bind fun _ _ _ ↦ local_pure _ _ _
    · exact local_pure _ _ _

end Lists

end Parser

/-! ## Clauses -/

namespace Statement

open ItemSql.Parser

theorem local_identifier : Local identifier :=
  local_expect _

theorem local_literal : Local literal := by
  refine local_next (fun _ _ _ _ ↦ rfl) fun past t ts ↦ ?_
  obtain ⟨kind, text, offset⟩ := t
  cases kind with
  | string | number => exact (local_pure _).behind
  | _ => exact behind_unexpected past _ _

theorem local_finish : Local finish :=
  (local_eat _).bind fun _ ↦ (local_expect _).bind fun _ ↦ local_pure _

theorem local_comparison : Local comparison := by
  refine local_next (fun _ _ _ _ ↦ rfl) fun past t ts ↦ ?_
  refine .ite (fun _ ↦ ?_) fun _ ↦ behind_unexpected past t _
  cases ComparisonOperator.ofSymbol? t.text with
  | some op => exact (local_pure _).behind
  | none => exact behind_unexpected past t _

theorem local_equals : Local equals :=
  local_next (fun _ _ _ _ ↦ rfl) fun past t _ ↦
    .ite (fun _ ↦ (local_pure _).behind) fun _ ↦ behind_unexpected past t _

theorem local_literalPair : Local literalPair :=
  (local_expect _).bind fun _ ↦
  local_literal.bind fun _ ↦
  (local_expect _).bind fun _ ↦
  local_literal.bind fun _ ↦
  (local_expect _).bind fun _ ↦
  local_pure _

theorem local_expression : Local expression := by
  refine local_identifier.bind fun name ↦ local_comparison.bind fun op ↦ ?_
  have hsingle : Local ((fun value ↦ [value]) <$> literal) :=
    local_literal.bind fun _ ↦ local_pure _
  exact .ite (local_literalPair.bind fun _ ↦ local_pure _) (hsingle.bind fun _ ↦ local_pure _)

theorem local_assignment : Local assignment :=
  local_identifier.bind fun _ ↦ local_equals.bind fun _ ↦
  local_literal.bind fun _ ↦ local_pure _

theorem local_commaList {α : Type} {element : Parser α} (h : Local element) :
    Local (chain element comma) :=
  local_chain h rfl fun _ _ _ _ ↦ rfl

theorem local_conjunctionList {α : Type} {element : Parser α} (h : Local element) :
    Local (chain element conjunction) :=
  local_chain h rfl fun _ _ _ _ ↦ rfl

theorem local_parenthesized {α : Type} {element : Parser α} (h : Local element) :
    Local (parenthesized element) :=
  (local_expect _).bind fun _ ↦
  (local_commaList h).bind fun _ ↦
  (local_expect _).bind fun _ ↦
  local_pure _

/-! ## Queries -/

theorem local_limit (given? : Option Int32) : Local (limit given?) := by
  intro past ts
  refine settled_ifNext (fun _ _ _ _ ↦ rfl) (fun _ _ _ _ ↦ rfl) (fun _ ↦ ?_)
    fun _ ↦ local_pure _ _ _
  -- A second limit is refused where it begins, and a number for what it says.
  refine .ite (fun _ ↦ behind_unexpected past _ _) fun _ ↦ .settled ?_
  rw [expect, next_ite_bind]
  refine settled_next (fun _ _ _ _ ↦ rfl) (.ite (fun hkind ↦ ?_) fun _ ↦ behind_unexpected _ _ _)
  generalize ts.tail.headD lastToken = t at hkind ⊢
  have hrefused : Behind (past ++ [(ts.headD lastToken).symbol] ++ [t.symbol]) ts.tail.tail
      (fail (.invalidLimit t.text) : Parser (Option Int32)) :=
    .refused (.invalidLimit _ t.symbol hkind)
  cases Decimal.int32? t.text with
  | none => exact hrefused
  | some n => exact .ite (fun _ ↦ (local_pure _).behind) fun _ ↦ hrefused

theorem local_columns : Local columns := by
  refine (local_eat _).bind fun wildcard ↦ .ite (local_pure _) ?_
  exact local_peek (fun _ _ _ _ ↦ rfl) fun t ↦ .ite (local_pure _) (local_commaList local_identifier)

theorem local_conditions : Local conditions := by
  refine (local_eatKeyword _).bind fun asked ↦ .ite ?_ (local_pure _)
  exact (local_conjunctionList local_expression).bind fun _ ↦ local_pure _

theorem local_order : Local order := by
  refine (local_eatKeyword _).bind fun asked ↦ .ite ?_ (local_pure _)
  refine (local_expectKeyword _).bind fun _ ↦ local_identifier.bind fun _ ↦ ?_
  refine (local_eatKeyword _).bind fun descending ↦ .ite (local_pure _) ?_
  exact (local_eatKeyword _).bind fun _ ↦ local_pure _

theorem local_select : Local select :=
  local_columns.bind fun _ ↦
  (local_expectKeyword _).bind fun _ ↦
  local_identifier.bind fun _ ↦
  (local_limit _).bind fun _ ↦
  local_conditions.bind fun _ ↦
  local_order.bind fun _ ↦
  (local_limit _).bind fun _ ↦
  local_finish.bind fun _ ↦
  local_pure _

/-! ## Items -/

theorem local_insert : Local insert :=
  (local_expectKeyword _).bind fun _ ↦
  local_identifier.bind fun _ ↦
  (local_parenthesized local_identifier).bind fun _ ↦
  (local_expectKeyword _).bind fun _ ↦
  (local_parenthesized local_literal).bind fun _ ↦
  local_finish.bind fun _ ↦
  .ite (local_pure _) fun _ ts ↦ .mismatch _ _ ts rfl

theorem local_update : Local update :=
  local_identifier.bind fun _ ↦
  (local_expectKeyword _).bind fun _ ↦
  (local_commaList local_assignment).bind fun _ ↦
  (local_expectKeyword _).bind fun _ ↦
  (local_conjunctionList local_assignment).bind fun _ ↦
  local_finish.bind fun _ ↦
  local_pure _

theorem local_delete : Local delete :=
  (local_expectKeyword _).bind fun _ ↦
  local_identifier.bind fun _ ↦
  (local_expectKeyword _).bind fun _ ↦
  (local_chain local_assignment rfl fun _ _ _ _ ↦ rfl).bind fun _ ↦
  local_finish.bind fun _ ↦
  local_pure _

/-! ## Tables -/

theorem local_drop : Local drop :=
  (local_expectKeyword _).bind fun _ ↦
  local_identifier.bind fun _ ↦
  local_finish.bind fun _ ↦
  local_pure _

theorem local_typeWord : Local typeWord := by
  refine local_next (fun _ _ _ _ ↦ rfl) fun past t ts ↦ ?_
  refine .ite (fun _ ↦ ?_) fun _ ↦ behind_unexpected past t _
  cases AttributeType.ofWord? t.text with
  | some type => exact (local_pure _).behind
  | none => exact behind_unexpected past t _

theorem local_keyConstraint : Local keyConstraint := by
  intro past ts
  refine settled_ifNext (fun _ _ _ _ ↦ rfl) (fun _ _ _ _ ↦ rfl) (fun _ ↦ ?_)
    fun _ ↦ local_pure _ _ _
  cases KeyType.ofConstraint? (ts.headD lastToken).text with
  | some type => exact (local_pure _).behind
  | none => exact behind_unexpected past _ _

theorem local_declaration : Local declaration :=
  local_identifier.bind fun _ ↦ local_typeWord.bind fun _ ↦
  local_keyConstraint.bind fun _ ↦ local_pure _

/-- The error names two of the three tokens that are taken, so all three are kept. -/
theorem local_capacity : Local capacity := by
  intro past ts
  unfold capacity identifier equals expect
  rw [next_ite_bind]
  refine settled_next (fun _ _ _ _ ↦ rfl) (.ite (fun hname ↦ .settled ?_) fun _ ↦
    behind_unexpected _ _ _)
  rw [next_ite_bind]
  refine settled_next (fun _ _ _ _ ↦ rfl) (.ite (fun hsign ↦ .settled ?_) fun _ ↦
    behind_unexpected _ _ _)
  refine settled_next (fun _ _ _ _ ↦ rfl) ?_
  generalize ts.headD lastToken = name at hname ⊢
  generalize ts.tail.headD lastToken = sign at hsign ⊢
  generalize ts.tail.tail.headD lastToken = t
  have hrefused : Behind (past ++ [name.symbol] ++ [sign.symbol] ++ [t.symbol]) ts.tail.tail.tail
      (fail (.invalidThroughput name.text t.text) :
        Parser (ProvisionedThroughput → ProvisionedThroughput)) := by
    have hequals : sign.symbol = ⟨.operator, "="⟩ := by rw [Token.symbol, hsign.1, hsign.2]
    refine .refused ?_
    rw [hequals, List.append_assoc, List.append_assoc]
    exact .invalidThroughput past name.symbol t.symbol hname
  cases Decimal.int64? t.text with
  | none => exact hrefused
  | some units =>
    exact .ite (fun _ ↦ (local_pure _).behind) fun _ ↦
      .ite (fun _ ↦ (local_pure _).behind) fun _ ↦ hrefused

theorem local_throughput : Local throughput := by
  refine (local_eatKeyword _).bind fun asked ↦ .ite ?_ (local_pure _)
  exact (local_parenthesized local_capacity).bind fun _ ↦ local_pure _

theorem local_create : Local create :=
  (local_expectKeyword _).bind fun _ ↦
  local_identifier.bind fun _ ↦
  (local_parenthesized local_declaration).bind fun _ ↦
  local_throughput.bind fun _ ↦
  local_finish.bind fun _ ↦
  local_pure _

/-! ## Statements -/

theorem settled_statement (ts : List Token) : Settled [] statement ts :=
  settled_next (fun _ _ _ _ ↦ rfl) <| .ite (fun _ ↦ local_select.behind) fun _ ↦
    .ite (fun _ ↦ local_insert.behind) fun _ ↦ .ite (fun _ ↦ local_update.behind) fun _ ↦
    .ite (fun _ ↦ local_create.behind) fun _ ↦ .ite (fun _ ↦ local_delete.behind) fun _ ↦
    .ite (fun _ ↦ local_drop.behind) fun _ ↦ .refused (.unknownStatement (ts.headD lastToken).symbol)

/-! ### The tokens of a text -/

variable {ts ts' : List Token} {w : List Symbol} {cause : SyntaxError.Cause}

theorem taken_eq (n : Nat) (ts : List Token) :
    taken n ts = (symbols ts).take n ++ List.replicate (n - ts.length) endSymbol := by
  induction n generalizing ts with
  | zero => rw [Nat.zero_sub]; rfl
  | succ n ih =>
    cases ts with
    | nil =>
      rw [taken, List.tail_nil, ih, symbols_nil, List.take_nil, List.take_nil, List.length_nil,
        Nat.sub_zero, Nat.sub_zero, List.replicate_succ]
      rfl
    | cons t ts => rw [taken, List.tail_cons, ih, List.length_cons, Nat.succ_sub_succ]; rfl

theorem taken_eq_take {n : Nat} (h : n ≤ ts.length) : taken n ts = (symbols ts).take n := by
  rw [taken_eq, Nat.sub_eq_zero_of_le h, List.replicate_zero, List.append_nil]

theorem taken_congr (h : symbols ts' = symbols ts) (n : Nat) : taken n ts' = taken n ts := by
  have hlength := congrArg List.length h
  rw [symbols, symbols, List.length_map, List.length_map] at hlength
  rw [taken_eq, taken_eq, h, hlength]

/-- What is cut off does not end the input, so the tokens of a text are not the first ones of
another. -/
theorem symbols_eq_of_take (hts : Scanned ts) (hts' : Scanned ts')
    (h : (symbols ts').take ts.length = symbols ts) : symbols ts' = symbols ts := by
  induction hts generalizing ts' with
  | last offset =>
    cases hts' with
    | last => rfl
    | cons ht => exact absurd (congrArg Symbol.kind (List.cons.inj h).1) ht.kind_ne
  | cons ht hts ih =>
    cases hts' with
    | last => exact absurd (congrArg Symbol.kind (List.cons.inj h).1).symm ht.kind_ne
    | cons ht' hts' =>
      obtain ⟨hhead, htail⟩ := List.cons.inj h
      rw [symbols_cons, symbols_cons, hhead, ih hts' htail]

theorem exists_symbols_eq_concat (hts : Scanned ts) : ∃ w, symbols ts = w ++ [endSymbol] := by
  induction hts with
  | last offset => exact ⟨[], rfl⟩
  | @cons t ts ht hts ih =>
    obtain ⟨w, hw⟩ := ih
    exact ⟨t.symbol :: w, by rw [symbols_cons, hw, List.cons_append]⟩

/-- A parser that goes past the end takes the end of the input more than once. -/
theorem exists_taken_eq_of_le (hts : Scanned ts) {n : Nat} (hn : ts.length ≤ n) :
    ∃ w, taken (n + 1) ts = w ++ [endSymbol, endSymbol] := by
  obtain ⟨w, hw⟩ := exists_symbols_eq_concat hts
  obtain ⟨m, hm⟩ : ∃ m, n + 1 - ts.length = m + 1 := ⟨n - ts.length, by omega⟩
  have hall : (symbols ts).take (n + 1) = symbols ts := by
    refine List.take_of_length_le ?_
    rw [symbols, List.length_map]
    exact Nat.le_succ_of_le hn
  refine ⟨w ++ List.replicate m endSymbol, ?_⟩
  rw [taken_eq, hall, hm, hw, List.append_assoc, List.append_assoc, List.singleton_append,
    ← List.replicate_succ, List.replicate_succ', List.replicate_succ', List.append_assoc]
  rfl

/-- Behind the end of the input nothing is read for its value. -/
theorem blames_end (h : cause.Blames (w ++ [endSymbol, endSymbol])) (v : List Symbol) :
    cause.Blames (v ++ [endSymbol]) := by
  generalize hu : w ++ [endSymbol, endSymbol] = u at h
  have hu := congrArg List.reverse hu
  cases h with
  | unexpectedToken w s expected =>
    obtain rfl : endSymbol = s := by simpa using congrArg List.head? hu
    exact .unexpectedToken v endSymbol expected
  | unknownStatement s => simp at hu
  | invalidLimit w s hs =>
    obtain rfl : endSymbol = s := by simpa using congrArg List.head? hu
    cases hs
  | invalidThroughput w name value hname => simp [endSymbol] at hu

/-- The token at this place of the text is the one that the cause blames, and the tokens up to it
are enough to refuse the text for this cause. -/
structure FirstOffender (source : String) (k : Nat) (cause : SyntaxError.Cause) : Prop where
  lt_length : k < (scan source).length
  blames : cause.Blames ((symbols (scan source)).take (k + 1))
  decides : ∀ source' : String,
    (symbols (scan source')).take (k + 1) = (symbols (scan source)).take (k + 1) →
      parse source' = .error ⟨cause, source'⟩

/-- A parser that has gone past the end has refused the end of the input. -/
theorem exists_offender (hts : Scanned ts) {n : Nat} (h : cause.Blames (taken (n + 1) ts)) :
    ∃ k < ts.length, cause.Blames ((symbols ts).take (k + 1)) ∧ ∀ ts', Scanned ts' →
      (symbols ts').take (k + 1) = (symbols ts).take (k + 1) →
        taken (n + 1) ts' = taken (n + 1) ts := by
  have hlength (ts : List Token) : (symbols ts).length = ts.length := List.length_map _
  rcases Nat.lt_or_ge n ts.length with hlt | hge
  · rw [taken_eq_take hlt] at h ⊢
    refine ⟨n, hlt, h, fun ts' _ htake ↦ ?_⟩
    have hle := congrArg List.length htake
    rw [List.length_take, List.length_take, hlength, hlength] at hle
    rw [taken_eq_take (by omega), htake]
  · have hpos : 0 < ts.length := List.length_pos_iff.mpr hts.ne_nil
    have hall : (symbols ts).take (ts.length - 1 + 1) = symbols ts := by
      rw [Nat.sub_add_cancel hpos, ← hlength ts, List.take_length]
    refine ⟨ts.length - 1, Nat.sub_lt hpos Nat.one_pos, ?_, fun ts' hts' htake ↦ ?_⟩
    · obtain ⟨v, hv⟩ := exists_symbols_eq_concat hts
      obtain ⟨w, hw⟩ := exists_taken_eq_of_le hts hge
      rw [hw] at h
      rw [hall, hv]
      exact blames_end h v
    · rw [hall, Nat.sub_add_cancel hpos] at htake
      exact taken_congr (symbols_eq_of_take hts hts' htake) _

/-- **Locality of errors.** A text that is refused is refused with itself as the source. Unless it
is an insertion of more columns than values, or of fewer, it is refused for one of its tokens: what
the error names was found there, and every text with the same tokens up to this one is refused for
the same cause. -/
theorem firstOffender_of_parse {source : String} {e : SyntaxError} (h : parse source = .error e) :
    e.source = source ∧ ((∃ columns values, e.cause = .columnCountMismatch columns values) ∨
      ∃ k, FirstOffender source k e.cause) := by
  rw [parse] at h
  cases settled_statement (scan source) with
  | done n r hrun => rw [hrun _ rfl] at h; cases h
  | mismatch columns values rest hrun =>
    rw [hrun] at h
    obtain rfl := Except.error.inj h
    exact ⟨rfl, .inl ⟨columns, values, rfl⟩⟩
  | failed n cause hcause hrun =>
    rw [hrun _ rfl] at h
    obtain rfl := Except.error.inj h
    obtain ⟨k, hk, hblames, hsame⟩ := exists_offender (scanned_scan source) hcause
    refine ⟨rfl, .inr ⟨k, hk, hblames, fun source' htake ↦ ?_⟩⟩
    rw [parse, hrun _ (hsame _ (scanned_scan source') htake)]

/-- A table with a throughput that is no number. What comes behind it is no better. -/
def highText : String :=
  "create table t (id number hash) with (read = high, write = 5"

theorem firstOffender_highText :
    parse highText = .error ⟨.invalidThroughput "read" "high", highText⟩ ∧
      ∃ k, FirstOffender highText k (.invalidThroughput "read" "high") := by
  have hrefused : parse highText = .error ⟨.invalidThroughput "read" "high", highText⟩ := by
    decide +kernel
  obtain ⟨-, ⟨columns, values, hcause⟩ | hfirst⟩ := firstOffender_of_parse hrefused
  · cases hcause
  · exact ⟨hrefused, hfirst⟩

end Statement

end ItemSql
