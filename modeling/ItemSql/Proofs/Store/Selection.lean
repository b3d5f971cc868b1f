import ItemSql.Proofs.Cursor
import ItemSql.Proofs.Statement.Selection
import ItemSql.Proofs.Store.Exchange

/-!
# Selections over the store

A table answers a query with the items that meet the conditions, in an order of its own and with
nothing but the attributes that are asked for. The rows are then made of these narrowed items. All
of this is only a way to get there: what a selection without a limit returns is the rows of the
matching items themselves, each of them once (`rows_selection`).

The order is by a comparison of items that need not be an order at all, as there are values that
cannot be compared. So nothing is said of how the items are arranged but that they are the same. The
sort may even break off over such items if there are more than twenty, and then nothing is returned
(`not_rows_selection`).
-/

namespace ItemSql

/-! ## What holds of an item -/

theorem AttributeValue.compare?_string_eq_iff {value : AttributeValue} {text : String} :
    value.compare? (.string text) = some .eq ↔ value = .string text := by
  cases value with
  | string content =>
    rw [compare?, Option.some.injEq, Std.LawfulEqOrd.compare_eq_iff_eq, string.injEq]
  | number content => exact iff_of_false nofun nofun
  | null => exact iff_of_false nofun nofun

/-- An equality with texts is met by a value that is one of them. -/
theorem Condition.satisfiedBy_texts {texts : List String} {value? : Option AttributeValue} :
    (⟨.eq, texts.map .string⟩ : Condition).satisfiedBy value? = true ↔
      ∃ text ∈ texts, value? = some (.string text) := by
  simp only [satisfiedBy, holdsOf, Option.any_eq_true, List.any_map, List.any_eq_true,
    Function.comp_apply, decide_eq_true_iff, AttributeValue.compare?_string_eq_iff]
  constructor
  · rintro ⟨value, rfl, text, htext, rfl⟩
    exact ⟨text, htext, rfl⟩
  · rintro ⟨text, htext, rfl⟩
    exact ⟨_, rfl, text, htext, rfl⟩

/-- Whether an expression holds of an item. -/
def Expression.holdsOf (e : Expression) (item : Item) : Bool :=
  e.condition.satisfiedBy (item.get? e.name)

/-! ## The answer of a table -/

namespace Table

variable {t : Table} {q : Query}

/-- Without a limit no item that matches is left out, and none is returned twice. -/
theorem items_query_perm {o : QueryOutput} (h : t.query q = some o) (hlimit : q.limit? = none) :
    o.items.Perm ((t.matching q.conditions).map (narrow q.attributesToGet)) := by
  obtain ⟨arranged, harranged, rfl⟩ := query_eq_some_iff.mp h
  rw [output, hlimit]
  exact (arrange_perm harranged).map _

/-- Where each attribute is named once, the items that match are those of which each expression
holds. -/
theorem matching_conditions {clause : List Expression} (h : (clause.map (·.name)).Nodup) :
    t.matching (Expression.conditions clause) =
      t.items.filter fun item ↦ clause.all fun e ↦ e.holdsOf item := by
  rw [matching, Expression.entries_conditions h]
  refine List.filter_congr fun item _ ↦ ?_
  rw [List.all_map]
  rfl

/-! ## Narrowed items -/

theorem get?_narrow {names : List String} {name : String} (h : name ∈ names) (item : Item) :
    (narrow names item).get? name = item.get? name := by
  rw [narrow]
  split
  · rfl
  · exact NameMap.get?_restrict names.contains (List.contains_iff_mem.mpr h)

theorem realizeRow_congr {columns : List String} {item item' : Item} {policy : NumberPolicy}
    (h : ∀ column ∈ columns, item.get? column = item'.get? column) :
    realizeRow columns item policy = realizeRow columns item' policy := by
  induction columns with
  | nil => rfl
  | cons column columns ih =>
    rw [realizeRow_cons, realizeRow_cons, h column List.mem_cons_self,
      ih fun other hother ↦ h other (.tail _ hother)]

/-- The row of a narrowed item is that of the item, be it a row or an error. -/
theorem realizeRow_narrow (columns : List String) (item : Item) (policy : NumberPolicy) :
    realizeRow columns (narrow columns item) policy = realizeRow columns item policy :=
  realizeRow_congr fun _ hcolumn ↦ get?_narrow hcolumn item

end Table

/-! ## Selections end to end -/

namespace Store

open Statement Statement.Grammar Token

variable {config : Config} {s : Store} {source : String} {t : Table}
  {selection : Selection (List Expression)}

theorem bind_of_selects (hselects : Selects Clause (symbols (scan source)) selection) :
    bind source [] = .ok source :=
  bind_of_sentence (sentence_query_iff.mpr ⟨selection, hselects, rfl⟩)

/-- What comes of a selection: what its table answers, or nothing if the sort breaks off. -/
theorem query_of_selects {statement : String} {params : List Param}
    (hselects : Selects Clause (symbols (scan source)) selection)
    (hbind : bind statement params = .ok source)
    (ht : s.tables.get? selection.table = some t) :
    ∃ s', s'.tables = s.tables ∧
      ((∃ o, t.query selection.query = some o ∧
        ((connection config).query statement params).run s =
          (some (.ok (.of (.of o.items (Request.query selection.query).projectedColumns?)
            config.numberPolicy)), s')) ∨
      (t.query selection.query = none ∧
        ((connection config).query statement params).run s = (none, s'))) := by
  have hprepare := prepare_of_parse hbind (parse_of_selects hselects)
  cases hquery : t.query selection.query with
  | none =>
    refine ⟨_, ?_, .inr ⟨rfl, query_connection_of_brokenOff hprepare ht hquery⟩⟩
    rfl
  | some o =>
    refine ⟨_, ?_, .inl ⟨o, rfl, query_connection_of_found hprepare ht hquery⟩⟩
    rfl

/-- A selection with listed columns and without a limit, whose clause names each attribute once,
returns the rows of the items of which every expression holds. The one exception is that these items
are too much for the sort. -/
theorem rows_selection (config : Config) {s : Store} {source : String} {t : Table}
    {selection : Selection (List Expression)}
    (hselects : Selects Clause (symbols (scan source)) selection)
    (hcolumns : selection.columns ≠ []) (hlimit : selection.limit? = none)
    (hdistinct : (selection.clause.map (·.name)).Nodup)
    (ht : s.tables.get? selection.table = some t) :
    bind source [] = .ok source ∧
      ∀ statement params, bind statement params = .ok source →
        ∃ s', s'.tables = s.tables ∧
          ((∃ cursor, ((connection config).query statement params).run s = (some (.ok cursor), s') ∧
            cursor.columns = selection.columns ∧
            cursor.rows.Perm
              ((t.items.filter fun item ↦ selection.clause.all fun e ↦ e.holdsOf item).map
                fun item ↦ realizeRow selection.columns item config.numberPolicy)) ∨
          (((connection config).query statement params).run s = (none, s') ∧
            t.Unsortable
              (t.items.filter fun item ↦ selection.clause.all fun e ↦ e.holdsOf item))) := by
  refine ⟨bind_of_selects hselects, fun statement params hbind ↦ ?_⟩
  have hmatching : t.matching selection.query.conditions =
      t.items.filter fun item ↦ selection.clause.all fun e ↦ e.holdsOf item :=
    Table.matching_conditions hdistinct
  obtain ⟨s', htables, ⟨o, ho, hrun⟩ | ⟨hnone, hrun⟩⟩ := query_of_selects hselects hbind ht
  · have hprojected : (Request.query selection.query).projectedColumns? = some selection.columns :=
      if_neg (mt List.isEmpty_iff.mp hcolumns)
    rw [hprojected] at hrun
    refine ⟨s', htables, .inl ⟨_, hrun, rfl, ?_⟩⟩
    have hitems : o.items.Perm
        ((t.matching selection.query.conditions).map (Table.narrow selection.columns)) :=
      Table.items_query_perm ho hlimit
    have hnarrow : (fun item ↦ realizeRow selection.columns item config.numberPolicy) ∘
        Table.narrow selection.columns =
          fun item ↦ realizeRow selection.columns item config.numberPolicy :=
      funext fun item ↦ Table.realizeRow_narrow selection.columns item config.numberPolicy
    have hrows := hitems.map fun item ↦ realizeRow selection.columns item config.numberPolicy
    rw [List.map_map, hnarrow, hmatching] at hrows
    exact hrows
  · exact ⟨s', htables, .inr ⟨hrun, hmatching ▸ Table.unsortable_of_query_eq_none hnone⟩⟩

/-! ### A row that fails, a column listed twice and an attribute that is missing -/

def shelf : Table :=
  ⟨[⟨"k", .hash⟩, ⟨"n", .range⟩],
    [.ofList [("k", .string "x"), ("n", .string "7"), ("a", .string "one"), ("b", .number "2.5")],
      .ofList [("k", .string "x"), ("n", .string "3"), ("a", .string "two")],
      .ofList [("n", .string "9"), ("a", .number "4"), ("k", .string "x")],
      .ofList [("k", .string "y"), ("n", .string "8"), ("b", .number "1")]]⟩

def shelfText : String :=
  "select b, a, b from t where k = \"x\" and n > \"5\""

def shelfSelection : Selection (List Expression) :=
  ⟨"t", ["b", "a", "b"], [⟨"k", .eq, [.string "x"]⟩, ⟨"n", .gt, [.string "5"]⟩], none, none⟩

theorem selects_shelfText : Selects Clause (symbols (scan shelfText)) shelfSelection := by
  have hcolumns : SepBy Comma Name
      ([⟨.identifier, "b"⟩] ++ ⟨.comma, ","⟩ :: ([⟨.identifier, "a"⟩] ++ ⟨.comma, ","⟩ ::
        [⟨.identifier, "b"⟩])) ["b", "a", "b"] :=
    .more (.mk "b") rfl (.more (.mk "a") rfl (.one (.mk "b")))
  have hclause : SepBy Conjunction Comparison
      ([⟨.identifier, "k"⟩, ⟨.operator, "="⟩, ⟨.string, "\"x\""⟩] ++ ⟨.keyword, "and"⟩ ::
        [⟨.identifier, "n"⟩, ⟨.operator, ">"⟩, ⟨.string, "\"5\""⟩]) shelfSelection.clause :=
    .more (.sign rfl (.string _)) (.inl ⟨rfl, by decide⟩) (.one (.sign rfl (.string _)))
  have hsymbols : symbols (scan shelfText) =
      [⟨.keyword, "select"⟩, ⟨.identifier, "b"⟩, ⟨.comma, ","⟩, ⟨.identifier, "a"⟩,
        ⟨.comma, ","⟩, ⟨.identifier, "b"⟩, ⟨.keyword, "from"⟩, ⟨.identifier, "t"⟩,
        ⟨.keyword, "where"⟩, ⟨.identifier, "k"⟩, ⟨.operator, "="⟩, ⟨.string, "\"x\""⟩,
        ⟨.keyword, "and"⟩, ⟨.identifier, "n"⟩, ⟨.operator, ">"⟩, ⟨.string, "\"5\""⟩,
        endSymbol] := by
    decide +kernel
  rw [hsymbols]
  exact .plain "t" (.listed hcolumns) (Clause.stated ⟨rfl, by decide⟩ hclause)

/-- The store of one table. -/
def shelfStore : Store :=
  ⟨.ofList [("t", shelf)], []⟩

theorem rows_selection_shelf :
    Selects Clause (symbols (scan shelfText)) shelfSelection ∧
      ∃ cursor s', ((connection ⟨true, "", ""⟩).query
          "select b, a, b from t where k = ? and n > ?" [.string "x", .string "5"]).run shelfStore =
            (some (.ok cursor), s') ∧
        cursor.columns = ["b", "a", "b"] ∧
        cursor.rows.Perm [.error (.invalidNumber "b" "2.5"), .ok [.null, .int 4, .null]] := by
  have hbind : bind "select b, a, b from t where k = ? and n > ?" [.string "x", .string "5"] =
      .ok shelfText := by
    decide +kernel
  have ht : shelfStore.tables.get? shelfSelection.table = some shelf := by decide +kernel
  have hfew : (shelf.items.filter fun item ↦
      shelfSelection.clause.all fun e ↦ e.holdsOf item).length ≤ 20 := by
    decide +kernel
  have hrows : ((shelf.items.filter fun item ↦
      shelfSelection.clause.all fun e ↦ e.holdsOf item).map fun item ↦
        realizeRow shelfSelection.columns item .strict) =
        [.error (.invalidNumber "b" "2.5"), .ok [.null, .int 4, .null]] := by
    decide +kernel
  obtain ⟨-, hrun⟩ := rows_selection ⟨true, "", ""⟩ selects_shelfText (by decide) rfl (by decide) ht
  obtain ⟨s', -, ⟨cursor, hquery, hcolumns, hperm⟩ | ⟨-, hitems⟩⟩ := hrun _ _ hbind
  · exact ⟨selects_shelfText, cursor, s', hquery, hcolumns, hrows ▸ hperm⟩
  · exact absurd hitems.many (Nat.not_lt_of_le hfew)

/-! ### Items that are too much for the sort -/

def crowdText : String :=
  "select k, r from t"

def crowdSelection : Selection (List Expression) :=
  ⟨"t", ["k", "r"], [], none, none⟩

theorem selects_crowdText : Selects Clause (symbols (scan crowdText)) crowdSelection := by
  have hsymbols : symbols (scan crowdText) =
      [⟨.keyword, "select"⟩, ⟨.identifier, "k"⟩, ⟨.comma, ","⟩, ⟨.identifier, "r"⟩,
        ⟨.keyword, "from"⟩, ⟨.identifier, "t"⟩, endSymbol] := by
    decide +kernel
  have hcolumns : SepBy Comma Name ([⟨.identifier, "k"⟩] ++ ⟨.comma, ","⟩ :: [⟨.identifier, "r"⟩])
      ["k", "r"] :=
    .more (.mk "k") rfl (.one (.mk "r"))
  rw [hsymbols]
  exact .plain "t" (.listed hcolumns) Clause.unsaid

/-- The exception cannot be left out. -/
theorem not_rows_selection :
    ¬ ∀ (config : Config) (s : Store) (source : String) (t : Table)
      (selection : Selection (List Expression)),
      Selects Clause (symbols (scan source)) selection → selection.columns ≠ [] →
        selection.limit? = none → (selection.clause.map (·.name)).Nodup →
        s.tables.get? selection.table = some t →
        ∃ cursor s', ((connection config).query source []).run s = (some (.ok cursor), s') := by
  intro hrows
  have ht : (⟨.ofList [("t", Table.crowd)], []⟩ : Store).tables.get? "t" = some Table.crowd := by
    decide +kernel
  have hbind : bind crowdText [] = .ok crowdText := by decide +kernel
  obtain ⟨cursor, s', hcursor⟩ := hrows {} _ crowdText _ crowdSelection selects_crowdText
    (by decide) rfl (by decide) ht
  have hprepare := prepare_of_parse hbind (parse_of_selects selects_crowdText)
  have hbroken : ((connection {}).query crowdText []).run _ = _ :=
    query_connection_of_brokenOff hprepare ht Table.query_crowd
  cases (Prod.mk.inj (hcursor.symm.trans hbroken)).1

end Store

end ItemSql
