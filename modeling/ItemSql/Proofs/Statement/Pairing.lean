import ItemSql.Proofs.NameMap.Pairs
import ItemSql.Proofs.Statement.Insertion

/-!
# Columns paired with values

An insertion is accepted if it has as many values as columns, and then it puts the item of their
pairs. An item has no name twice. A column that is listed again stands where it was listed first,
and has the value that was listed last (`paired_of_insertForm`), so every value is put if and only
if no column is listed again.

That nothing else is accepted is seen by counting, as for a truth value: a sentence has one
identifier more than it has literals.
-/

namespace ItemSql

namespace Statement

open Token Grammar

/-- The symbols of an insertion with these columns and these values, be there more of the ones or of
the others. -/
inductive Grammar.InsertForm :
    List Symbol → String → List String → List AttributeValue → Prop
  | mk {j k l : Symbol} {table : String} {w v e : List Symbol} {columns : List String}
      {values : List AttributeValue} (hj : Keyword "insert" j) (hk : Keyword "into" k)
      (hcolumns : Parenthesized Name w columns) (hl : Keyword "values" l)
      (hvalues : Parenthesized Value v values) (he : Ending e) :
      InsertForm (j :: (k :: ⟨.identifier, table⟩ :: (w ++ l :: v) ++ e)) table columns values

variable {source table : String} {columns : List String} {values : List AttributeValue}
  {u : List Symbol} {r : Request}

theorem Grammar.Ending.balance_eq {e : List Symbol} (h : Ending e) : balance e = 0 := by
  cases h <;> rfl

/-- With as many values as columns the form is a sentence. -/
theorem Grammar.InsertForm.sentence (h : InsertForm u table columns values)
    (hlength : columns.length = values.length) :
    Sentence u (.putItem ⟨table, .ofList (columns.zip values)⟩) := by
  obtain ⟨hj, hk, hcolumns, hl, hvalues, he⟩ := h
  exact .insert hj (.mk (.mk hk hcolumns hl hvalues hlength) he)

/-- The identifiers of a sentence are the name of the table and one for each of its values. -/
theorem Grammar.InsertForm.length_eq (h : InsertForm u table columns values) (hu : Sentence u r) :
    columns.length = values.length := by
  obtain @⟨j, k, l, table, w, v, e, columns, values, hj, hk, hcolumns, hl, hvalues, he⟩ := h
  have hbalance : balance (k :: ⟨.identifier, table⟩ :: (w ++ l :: v) ++ e) = 1 := by
    cases hu with
    | insert _ hwhole => exact hwhole.balance_eq
    | select hj' | update hj' | create hj' | delete hj' | drop hj' =>
      exact absurd (hj.2.symm.trans hj'.2) (by decide)
  have htable : weight ⟨.identifier, table⟩ = 1 := rfl
  rw [balance_append, balance_cons, balance_cons, balance_append, balance_cons, hk.weight_eq,
    hl.weight_eq, htable, he.balance_eq, hcolumns.balance_eq fun _ _ ↦ Name.balance_eq,
    hvalues.balance_eq fun _ _ ↦ Value.balance_eq] at hbalance
  omega

/-- The item has the columns in the order in which they are listed first, each with the value that
is listed for it last. -/
structure Paired (columns : List String) (values : List AttributeValue) (item : Item) : Prop where
  names_eq : item.names = distinct columns
  get?_eq (name : String) : item.get? name = (columns.zip values).reverse.lookup name
  /-- No value is dropped if and only if no column is listed again. -/
  entries_iff : item.entries = columns.zip values ↔ columns.Nodup
  get?_of_mem (h : columns.Nodup) :
    ∀ pair ∈ columns.zip values, item.get? pair.1 = some pair.2

theorem paired_ofList (hlength : columns.length = values.length) :
    Paired columns values (.ofList (columns.zip values)) := by
  have hcolumns : (columns.zip values).map Prod.fst = columns :=
    List.map_fst_zip hlength.le
  have hentries : (NameMap.ofList (columns.zip values)).entries = columns.zip values ↔
      columns.Nodup := by
    rw [NameMap.entries_ofList_eq_iff, hcolumns]
  refine ⟨?_, NameMap.get?_ofList _, hentries, fun hnodup pair hpair ↦ ?_⟩
  · rw [NameMap.names_ofList, hcolumns]
  · refine NameMap.get?_of_mem ?_
    rw [hentries.mpr hnodup]
    exact hpair

/-- An insertion is accepted if and only if it has as many values as columns, and puts the item in
which they are paired. -/
theorem paired_of_insertForm (h : InsertForm (symbols (scan source)) table columns values) :
    ((∃ r, parse source = .ok r) ↔ columns.length = values.length) ∧
      ∀ r, parse source = .ok r → ∃ item, r = .putItem ⟨table, item⟩ ∧
        Paired columns values item := by
  refine ⟨⟨?_, fun hlength ↦ ⟨_, parse_of_sentence (h.sentence hlength)⟩⟩, fun r hr ↦ ?_⟩
  · rintro ⟨r, hr⟩
    exact h.length_eq (sentence_of_parse hr)
  · have hsentence := sentence_of_parse hr
    have hlength := h.length_eq hsentence
    exact ⟨_, sentence_unique hsentence (h.sentence hlength), paired_ofList hlength⟩

/-- An insertion that lists a column twice, with two values. -/
def twiceText : String :=
  "insert into t (a, b, a) values (1, 2, 3)"

theorem insertForm_twiceText : InsertForm (symbols (scan twiceText)) "t" ["a", "b", "a"]
    [.number "1", .number "2", .number "3"] := by
  have hcolumns : SepBy Comma Name
      ([⟨.identifier, "a"⟩] ++ ⟨.comma, ","⟩ :: ([⟨.identifier, "b"⟩] ++ ⟨.comma, ","⟩ ::
        [⟨.identifier, "a"⟩])) ["a", "b", "a"] :=
    .more (.mk "a") rfl (.more (.mk "b") rfl (.one (.mk "a")))
  have hvalues : SepBy Comma Value
      ([⟨.number, "1"⟩] ++ ⟨.comma, ","⟩ :: ([⟨.number, "2"⟩] ++ ⟨.comma, ","⟩ ::
        [⟨.number, "3"⟩])) [.number "1", .number "2", .number "3"] :=
    .more (.mk (.number "1")) rfl (.more (.mk (.number "2")) rfl (.one (.mk (.number "3"))))
  have hsymbols : symbols (scan twiceText) =
      [⟨.keyword, "insert"⟩, ⟨.keyword, "into"⟩, ⟨.identifier, "t"⟩, ⟨.leftParen, "("⟩,
        ⟨.identifier, "a"⟩, ⟨.comma, ","⟩, ⟨.identifier, "b"⟩, ⟨.comma, ","⟩,
        ⟨.identifier, "a"⟩, ⟨.rightParen, ")"⟩, ⟨.keyword, "values"⟩, ⟨.leftParen, "("⟩,
        ⟨.number, "1"⟩, ⟨.comma, ","⟩, ⟨.number, "2"⟩, ⟨.comma, ","⟩, ⟨.number, "3"⟩,
        ⟨.rightParen, ")"⟩, endSymbol] := by
    decide +kernel
  rw [hsymbols]
  exact .mk (j := ⟨.keyword, "insert"⟩) (k := ⟨.keyword, "into"⟩) (l := ⟨.keyword, "values"⟩)
    ⟨rfl, by decide⟩ ⟨rfl, by decide⟩ (.mk hcolumns) ⟨rfl, by decide⟩ (.mk hvalues) .bare

theorem paired_twiceText :
    InsertForm (symbols (scan twiceText)) "t" ["a", "b", "a"]
        [.number "1", .number "2", .number "3"] ∧
      ∃ item, parse twiceText = .ok (.putItem ⟨"t", item⟩) ∧
        Paired ["a", "b", "a"] [.number "1", .number "2", .number "3"] item := by
  obtain ⟨haccepted, hrequest⟩ := paired_of_insertForm insertForm_twiceText
  obtain ⟨r, hr⟩ := haccepted.mpr rfl
  obtain ⟨item, rfl, hitem⟩ := hrequest r hr
  exact ⟨insertForm_twiceText, item, hr, hitem⟩

/-- The first of the three values is not put. -/
theorem parse_insertForm_dropped :
    ¬ ∀ (source table : String) (columns : List String) (values : List AttributeValue),
      InsertForm (symbols (scan source)) table columns values → ∀ r, parse source = .ok r →
        columns.length = values.length ∧ ∃ item, r = .putItem ⟨table, item⟩ ∧
          item.names = columns ∧
          ∀ pair ∈ columns.zip values, item.get? pair.1 = some pair.2 := by
  intro hpaired
  have hparse := parse_of_sentence (insertForm_twiceText.sentence rfl)
  obtain ⟨-, item, -, hnames, -⟩ := hpaired _ _ _ _ insertForm_twiceText _ hparse
  have hnodup : item.names.Nodup := item.nodup_names
  rw [hnames] at hnodup
  exact absurd hnodup (by decide)

end Statement

end ItemSql
