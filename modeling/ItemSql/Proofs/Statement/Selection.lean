import ItemSql.Proofs.Condition
import ItemSql.Proofs.Statement.Placeholder

/-!
# Queries with their clause

A query holds the conditions that its clause comes to, and not the clause. A *selection* is the same
query with the clause as it is written, and it is what a text says: a text is parsed to a query
exactly if it spells a selection of this query (`parse_eq_ok_query_iff`).

What is said of the conditions of a query is said of the clause here. The values of a range are a
case of it. A clause that names an attribute again gathers values, so behind a range there may be
more than two of them, and the range itself stands last.
-/

namespace ItemSql

/-- A query with a clause of some form. -/
structure Selection (α : Type) where
  table : String
  columns : List String
  clause : α
  limit? : Option Int32
  forward? : Option Bool
  deriving DecidableEq, Repr

namespace Selection

variable {α β : Type}

/-- The selection with another form of its clause. -/
def map (f : α → β) (s : Selection α) : Selection β :=
  ⟨s.table, s.columns, f s.clause, s.limit?, s.forward?⟩

/-- The query that a selection asks for. -/
def query (s : Selection (List Expression)) : Query :=
  ⟨s.table, s.columns, Expression.conditions s.clause, s.limit?, s.forward?⟩

end Selection

namespace Statement

open Token Grammar

variable {w v : List Symbol}

/-! ## The grammar of selections -/

namespace Grammar

/-- The clause of a query. -/
inductive Clause : List Symbol → List Expression → Prop
  | unsaid : Clause [] []
  | stated {k : Symbol} {w : List Symbol} {clause : List Expression} (hk : Keyword "where" k)
      (hw : SepBy Conjunction Comparison w clause) : Clause (k :: w) clause

/-- A whole query, whose clause has the given form. -/
inductive Selects {α : Type} (form : List Symbol → α → Prop) : List Symbol → Selection α → Prop
  | mk {k l : Symbol} {w₁ w₂ w₃ w₄ w₅ e : List Symbol} {names : List String} {table : String}
      {early? late? : Option Int32} {clause : α} {forward? : Option Bool}
      (hk : Keyword "select" k) (hnames : Columns w₁ names) (hl : Keyword "from" l)
      (hearly : Limit w₂ early?) (hclause : form w₃ clause) (horder : Order w₄ forward?)
      (hlate : Limit w₅ late?) (honce : early? = none ∨ late? = none) (he : Ending e) :
      Selects form (k :: (w₁ ++ l :: ⟨.identifier, table⟩ :: (w₂ ++ (w₃ ++ (w₄ ++ w₅))) ++ e))
        ⟨table, names, clause, early?.or late?, forward?⟩

/-- A query of lower case words, with neither a limit nor an order. -/
theorem Selects.plain {α : Type} {form : List Symbol → α → Prop} {names : List String} {clause : α}
    (table : String) (hw : Columns w names) (hv : form v clause) :
    Selects form (⟨.keyword, "select"⟩ :: (w ++ ⟨.keyword, "from"⟩ :: ⟨.identifier, table⟩ ::
      (v ++ [endSymbol]))) ⟨table, names, clause, none, none⟩ := by
  have h : Selects form (⟨.keyword, "select"⟩ :: (w ++ ⟨.keyword, "from"⟩ ::
      ⟨.identifier, table⟩ :: ([] ++ (v ++ ([] ++ []))) ++ [endSymbol]))
      ⟨table, names, clause, none, none⟩ :=
    .mk ⟨rfl, by decide⟩ hw ⟨rfl, by decide⟩ .none hv .unsaid .none (.inl rfl) .bare
  simpa using h

theorem where_iff {conditions : NameMap Condition} :
    Where w conditions ↔ ∃ clause, Clause w clause ∧ Expression.conditions clause = conditions := by
  constructor
  · intro h
    cases h with
    | unsaid => exact ⟨[], .unsaid, rfl⟩
    | clause hk hw => exact ⟨_, .stated hk hw, rfl⟩
  · rintro ⟨clause, h, rfl⟩
    cases h with
    | unsaid => exact .unsaid
    | stated hk hw => exact .clause hk hw

theorem sentence_query_iff {q : Query} :
    Sentence w (.query q) ↔ ∃ s, Selects Clause w s ∧ s.query = q := by
  constructor
  · intro h
    generalize hr : Request.query q = r at h
    rcases h with ⟨hk, ⟨hselect, he⟩⟩ | ⟨-, ⟨⟨⟩, -⟩⟩ | ⟨-, ⟨⟨⟩, -⟩⟩ | ⟨-, ⟨⟨⟩, -⟩⟩ | ⟨-, ⟨⟨⟩, -⟩⟩ |
      ⟨-, ⟨⟨⟩, -⟩⟩
    case select =>
      obtain ⟨hnames, hl, hearly, hconditions, horder, hlate, honce⟩ := hselect
      obtain rfl := Request.query.inj hr
      obtain ⟨clause, hclause, rfl⟩ := where_iff.mp hconditions
      exact ⟨_, .mk hk hnames hl hearly hclause horder hlate honce he, rfl⟩
    all_goals cases hr
  · rintro ⟨s, ⟨hk, hnames, hl, hearly, hclause, horder, hlate, honce, he⟩, rfl⟩
    have hwhere := where_iff.mpr ⟨_, hclause, rfl⟩
    exact .select hk (.mk (.mk hnames hl hearly hwhere horder hlate honce) he)

/-- The symbols of the clause are among those of the selection. -/
theorem Selects.exists_clause {α : Type} {form : List Symbol → α → Prop} {s : Selection α}
    (h : Selects form w s) : ∃ v, form v s.clause ∧ v ⊆ w := by
  obtain ⟨-, -, -, -, hclause, -, -, -, -⟩ := h
  refine ⟨_, hclause, fun x hx ↦ ?_⟩
  simp [hx]

theorem Selects.map {α β : Type} {form : List Symbol → α → Prop} {form' : List Symbol → β → Prop}
    {f : α → β} {s : Selection α} (h : Selects form w s)
    (hform : ∀ v a, form v a → form' v (f a)) : Selects form' w (s.map f) := by
  obtain ⟨hk, hnames, hl, hearly, hclause, horder, hlate, honce, he⟩ := h
  exact .mk hk hnames hl hearly (hform _ _ hclause) horder hlate honce he

end Grammar

/-- A text is parsed to a query exactly if it spells a selection of this query. -/
theorem parse_eq_ok_query_iff {source : String} {q : Query} :
    parse source = .ok (.query q) ↔ ∃ s, Selects Clause (symbols (scan source)) s ∧ s.query = q :=
  ⟨fun h ↦ sentence_query_iff.mp (sentence_of_parse h),
    fun h ↦ parse_of_sentence (sentence_query_iff.mpr h)⟩

theorem parse_of_selects {source : String} {s : Selection (List Expression)}
    (h : Selects Clause (symbols (scan source)) s) : parse source = .ok (.query s.query) :=
  parse_eq_ok_query_iff.mpr ⟨s, h, rfl⟩

/-! ## Expressions of a clause -/

theorem Grammar.SepBy.exists_of_mem {α : Type} {separator : Symbol → Prop}
    {element : List Symbol → α → Prop} {as : List α} {a : α} (h : SepBy separator element w as)
    (ha : a ∈ as) : ∃ v, element v a ∧ v ⊆ w := by
  induction h with
  | one hb =>
    obtain rfl := List.mem_singleton.mp ha
    exact ⟨_, hb, fun _ hs ↦ hs⟩
  | more hb _ _ ih =>
    rcases List.mem_cons.mp ha with rfl | ha
    · exact ⟨_, hb, List.subset_append_left _ _⟩
    · obtain ⟨v, hv, hsubset⟩ := ih ha
      exact ⟨v, hv, fun s hs ↦ List.mem_append_right _ (.tail _ (hsubset hs))⟩

theorem Grammar.Comparison.values_ne_nil {e : Expression} (h : Comparison w e) : e.values ≠ [] := by
  cases h <;> exact List.cons_ne_nil _ _

/-- Only the word `between` makes a range, so a range has two values. -/
theorem Grammar.Comparison.values_of_between {e : Expression} (h : Comparison w e)
    (hcut : ∀ s ∈ w, s.kind ≠ .endOfInput → s.IsCut) (hop : e.operator = .between) :
    ∃ low high, e.values = [low, high] := by
  cases h with
  | @sign name sign op s value hsign hs =>
    obtain rfl : op = .between := hop
    have hsymbol : Symbol.IsCut ⟨.operator, sign⟩ := hcut _ (.tail _ List.mem_cons_self) (by simp)
    exact absurd hsign (hsymbol.ne_between rfl)
  | between => exact ⟨_, _, rfl⟩

/-- An expression of the clause of a text was read there. -/
theorem exists_comparison {source : String} {s : Selection (List Expression)} {e : Expression}
    (h : Selects Clause (symbols (scan source)) s) (he : e ∈ s.clause) :
    ∃ v, Comparison v e ∧ ∀ t ∈ v, t.kind ≠ .endOfInput → t.IsCut := by
  obtain ⟨u, hclause, hu⟩ := h.exists_clause
  generalize s.clause = clause at hclause he
  cases hclause with
  | unsaid => cases he
  | stated hk hw =>
    obtain ⟨v, hv, hsubset⟩ := hw.exists_of_mem he
    refine ⟨v, hv, fun t ht ↦ (scanned_scan source).isCut t (hu ?_)⟩
    exact .tail _ (hsubset ht)

/-! ## Ranges -/

/-- The values of the condition on an attribute whose last expression is a range: those of the
expressions before, and the two of the range. -/
structure EndsInRange (own : List Expression) (values : List AttributeValue) : Prop where
  split : ∃ before last low high, own = before ++ [last] ∧ last.operator = .between ∧
    last.values = [low, high] ∧ values = before.flatMap (·.values) ++ [low, high]
  /-- There are just two values where the range is the only expression. -/
  pair : values.length = 2 ↔ own.length = 1

theorem endsInRange {own : List Expression} {last : Expression}
    (hread : ∀ e ∈ own, ∃ v, Comparison v e ∧ ∀ t ∈ v, t.kind ≠ .endOfInput → t.IsCut)
    (hlast : own.getLast? = some last) (hop : last.operator = .between) :
    EndsInRange own (own.flatMap (·.values)) := by
  obtain ⟨before, rfl⟩ := List.getLast?_eq_some_iff.mp hlast
  obtain ⟨v, hv, hcut⟩ := hread last (List.mem_append_right _ List.mem_cons_self)
  obtain ⟨low, high, hvalues⟩ := hv.values_of_between hcut hop
  have hsplit : (before ++ [last]).flatMap (·.values) = before.flatMap (·.values) ++ [low, high] := by
    rw [List.flatMap_append, List.flatMap_singleton, hvalues]
  refine ⟨⟨before, last, low, high, rfl, hop, hvalues, hsplit⟩, ?_⟩
  rw [hsplit, List.length_append, List.length_append]
  constructor
  · intro hlength
    have hnil : before.flatMap (·.values) = [] :=
      List.length_eq_zero_iff.mp (Nat.add_right_cancel hlength)
    -- An expression before the last one would have a value.
    cases before with
    | nil => rfl
    | cons e before =>
      obtain ⟨u, hu, -⟩ := hread e List.mem_cons_self
      exact absurd (List.append_eq_nil_iff.mp hnil).1 hu.values_ne_nil
  · intro hlength
    obtain rfl := List.length_eq_zero_iff.mp (Nat.add_right_cancel hlength)
    rfl

/-- A condition that is a range comes of a range as the last expression on its attribute. It has the
two values of this range in their order, behind the values of all expressions before. -/
theorem endsInRange_of_parse {source : String} {q : Query} (h : parse source = .ok (.query q)) :
    (∃ s, Selects Clause (symbols (scan source)) s) ∧
      ∀ s, Selects Clause (symbols (scan source)) s → s.query = q ∧
        ∀ name c, (name, c) ∈ q.conditions.entries → c.operator = .between →
          EndsInRange (Expression.about name s.clause) c.values := by
  constructor
  · obtain ⟨s, hs, -⟩ := parse_eq_ok_query_iff.mp h
    exact ⟨s, hs⟩
  · intro s hs
    obtain rfl : s.query = q := by
      have hparse := (parse_of_selects hs).symm.trans h
      exact Request.query.inj (Except.ok.inj hparse)
    refine ⟨rfl, fun name c hc hop ↦ ?_⟩
    have hget : (Expression.conditions s.clause).get? name = some c := NameMap.get?_of_mem hc
    rw [Expression.get?_conditions, Option.map_eq_some_iff] at hget
    obtain ⟨last, hlast, rfl⟩ := hget
    exact endsInRange (fun e he ↦ exists_comparison hs (List.mem_filter.mp he).1) hlast hop

/-- An equality and a range of one attribute, and a range of another one. -/
def mixedText : String :=
  "select * from t where a = 1 and a between (2, 3) or b between (9, 4)"

def mixedQuery : Query :=
  ⟨"t", [], .ofList [("a", ⟨.between, [.number "1", .number "2", .number "3"]⟩),
    ("b", ⟨.between, [.number "9", .number "4"]⟩)], none, none⟩

theorem parse_mixedText : parse mixedText = .ok (.query mixedQuery) := by
  decide +kernel

theorem endsInRange_mixedText :
    parse mixedText = .ok (.query mixedQuery) ∧
      (∃ s, Selects Clause (symbols (scan mixedText)) s) ∧
      ∀ s, Selects Clause (symbols (scan mixedText)) s →
        EndsInRange (Expression.about "a" s.clause) [.number "1", .number "2", .number "3"] ∧
          EndsInRange (Expression.about "b" s.clause) [.number "9", .number "4"] := by
  obtain ⟨hspelled, hends⟩ := endsInRange_of_parse parse_mixedText
  refine ⟨parse_mixedText, hspelled, fun s hs ↦ ?_⟩
  obtain ⟨-, hconditions⟩ := hends s hs
  constructor
  · exact hconditions "a" _ List.mem_cons_self rfl
  · exact hconditions "b" _ (.tail _ List.mem_cons_self) rfl

/-- The values gathered before a range stay there. -/
theorem parse_between_not_pair :
    ¬ ∀ (source : String) (q : Query), parse source = .ok (.query q) →
      ∀ name c, (name, c) ∈ q.conditions.entries → c.operator = .between →
        ∃ low high, c.values = [low, high] := by
  intro hpair
  have hc : ("a", ⟨.between, [.number "1", .number "2", .number "3"]⟩) ∈
      mixedQuery.conditions.entries := List.mem_cons_self
  obtain ⟨low, high, hvalues⟩ := hpair _ _ parse_mixedText "a" _ hc rfl
  cases hvalues

end Statement

end ItemSql
