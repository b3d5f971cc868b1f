import ItemSql.Proofs.Statement.Insertion
import ItemSql.Proofs.Store.Selection

/-!
# What is inserted is what is read

A row that is inserted into a new table and asked for by its key comes back cell for cell, whatever
its texts and its integers are. A value goes a long way from a parameter to a cell: it is written
into a statement, cut off it again, sent and stored, compared, sent back and realized. Most of the
way is behind `query_connection_of_acknowledged` and `query_connection_of_found`. What is left is
the way into a request (`prepare_insertText` and its companions), and the row of the one item that
the table holds.
-/

namespace ItemSql

/-! ## Values of a row -/

/-- What is inserted into a column: an integer or a text. -/
inductive Datum where
  | int (n : Int64)
  | text (content : String)
  deriving DecidableEq, Repr

namespace Datum

/-- The parameter of a statement. -/
def param : Datum → Param
  | .int n => .int n
  | .text content => .string content

/-- The value that the store keeps. -/
def value : Datum → AttributeValue
  | .int n => .number (Decimal.ofInt n.toInt)
  | .text content => .string content

/-- The cell that is read. There is no cell for the empty text. -/
def cell : Datum → Cell
  | .int n => .int n
  | .text content => if content = "" then .null else .bytes (Text.utf8 content)

open Token Statement.Grammar

theorem hasText_param (d : Datum) : d.param.hasText = true := by
  cases d <;> rfl

/-- A parameter is written as a literal of its value. -/
theorem exists_spells_render (d : Datum) :
    ∃ w, Spells d.param.render.toList w ∧ Value w d.value := by
  cases d with
  | int n => exact ⟨_, .integer n.toInt, .mk (.number _)⟩
  | text content => exact ⟨_, .quote content, .mk (literal_quote content)⟩

/-- The value that the store keeps is read as the cell, under either policy. -/
theorem realize_value (d : Datum) (column : String) (policy : NumberPolicy) :
    realize (some d.value) column policy = .ok d.cell := by
  cases d with
  | int n => exact realizeNumber_ofInt n column policy
  | text content =>
    rw [value, cell, realize]
    split <;> rfl

end Datum

/-! ## The statements -/

/-- The statement that creates a table with a key. -/
def createText (table key : String) : String :=
  "create table " ++ table ++ " (" ++ key ++ " string hash)"

/-- The statement that asks for columns of the row of a key. -/
def selectText (table key : String) (columns : List String) (value : String) : String :=
  "select " ++ String.intercalate ", " columns ++ " from " ++ table ++ " where " ++ key ++ " = " ++
    value

/-- The item of a row. -/
def rowItem (row : List (String × Datum)) : Item :=
  .ofList (row.map fun e ↦ (e.1, e.2.value))

/-- The query for columns of the row of a key. -/
def rowQuery (table key s : String) (columns : List String) : Query :=
  ⟨table, columns, Expression.conditions [⟨key, .eq, [.string s]⟩], none, none⟩

section Prepare

open Token Statement.Grammar Binding

variable {statement : String} {ps : List Param} {ds : List Char} {w : List Symbol} {r : Request}

/-- What is bound to a sentence of the grammar is the request of the sentence. -/
theorem prepare_of_binds (hbinds : Binds statement.toList ps ds) (hspells : Spells ds w)
    (h : Sentence (w ++ [endSymbol]) r) : prepare statement ps = .ok r := by
  have hparse : Statement.parse (String.ofList ds) = .ok r := by
    apply Statement.parse_of_sentence
    rw [scan, String.toList_ofList]
    change Sentence (spelled ds) r
    rwa [hspells.spelled_eq]
  exact prepare_of_parse hbinds.bind hparse

theorem toList_createText (table key : String) : (createText table key).toList =
    "create".toList ++ ' ' :: ("table".toList ++ ' ' :: (table.toList ++ ' ' :: ([] ++ '(' ::
      (key.toList ++ ' ' :: ("string".toList ++ ' ' :: ("hash".toList ++ ')' :: [])))))) := by
  delta createText
  rw [String.append_assoc, String.append_assoc, String.append_assoc, String.toList_append,
    String.toList_append, String.toList_append, String.toList_append]
  rfl

theorem prepare_createText {table key : String} (htable : IsName table) (hkey : IsName key) :
    prepare (createText table key) [] =
      .ok (.createTable ⟨table, [⟨key, .string⟩], [⟨key, .hash⟩], {}⟩) := by
  have hbinds : Binds (createText table key).toList [] (createText table key).toList :=
    (Binds.text "create table " (by decide)).append_text (.name htable)
      |>.append_text (.text " (" (by decide))
      |>.append_text (.name hkey)
      |>.append_text (.text " string hash)" (by decide))
  have hspells := (Spells.keyword "create" (by decide) (by decide)).blank <|
    (Spells.keyword "table" (by decide) (by decide)).blank <|
    (Spells.name htable).blank <| Spells.nil.mark .leftParen <| (Spells.name hkey).blank <|
    (Spells.word "string" (by decide)).blank <|
    (Spells.word "hash" (by decide)).mark .rightParen .nil
  rw [← toList_createText] at hspells
  refine prepare_of_binds hbinds hspells ?_
  exact .create ⟨rfl, by decide⟩ (.mk (.mk ⟨rfl, by decide⟩
    (.mk (.one (.key (by decide) (by decide)))) .unsaid) .bare)

theorem prepare_insertText (row : List (String × Datum)) {table : String} (htable : IsName table)
    (hrow : row ≠ []) (hcolumns : ∀ name ∈ row.map Prod.fst, IsName name) :
    prepare (insertText table (row.map Prod.fst) (row.map fun _ ↦ "?"))
        (row.map fun e ↦ e.2.param) =
      .ok (.putItem ⟨table, rowItem row⟩) := by
  have hparams : ∀ p ∈ row.map fun e ↦ e.2.param, p.hasText = true :=
    List.forall_mem_map.mpr fun e _ ↦ e.2.hasText_param
  have hbinds := binds_insertText htable hcolumns hparams
  simp only [List.map_map, Function.comp_def] at hbinds
  obtain ⟨w, hw, hlisted⟩ := exists_spells_names (mt List.map_eq_nil_iff.mp hrow) hcolumns
  have hrender : ∀ e ∈ row, ∃ v, Spells e.2.param.render.toList v ∧ Value v e.2.value :=
    fun e _ ↦ e.2.exists_spells_render
  obtain ⟨v, hv, hvalues⟩ := exists_spells_commaList hrow hrender
  refine prepare_of_binds hbinds (spells_insertText htable hw hv) ?_
  have hnames : SepBy Comma Name w ((row.map fun e ↦ (e.1, e.2.value)).map Prod.fst) := by
    rw [List.map_map]
    exact hlisted
  have hitem : SepBy Comma Value v ((row.map fun e ↦ (e.1, e.2.value)).map Prod.snd) := by
    rw [List.map_map]
    exact hvalues
  exact sentence_insertion hnames hitem

theorem toList_selectText (table key : String) (columns : List String) (value : String) :
    (selectText table key columns value).toList =
      "select".toList ++ ' ' :: (commaList columns ++ ' ' :: ("from".toList ++ ' ' ::
        (table.toList ++ ' ' :: ("where".toList ++ ' ' :: (key.toList ++ ' ' :: (['='] ++ ' ' ::
          value.toList)))))) := by
  delta selectText commaList
  rw [String.append_assoc, String.append_assoc, String.append_assoc, String.append_assoc,
    String.append_assoc, String.append_assoc, String.toList_append, String.toList_append,
    String.toList_append, String.toList_append, String.toList_append, String.toList_append,
    String.toList_append]
  rfl

theorem binds_selectText {table key : String} {columns : List String} {p : Param}
    (htable : IsName table) (hkey : IsName key) (hcolumns : ∀ name ∈ columns, IsName name)
    (hp : p.hasText = true) :
    Binds (selectText table key columns "?").toList [p]
      (selectText table key columns p.render).toList := by
  have hvalue : Binds "?".toList [p] p.render.toList := .placeholder hp
  exact (Binds.text "select " (by decide)).append_text (.names hcolumns)
    |>.append_text (.text " from " (by decide))
    |>.append_text (.name htable)
    |>.append_text (.text " where " (by decide))
    |>.append_text (.name hkey)
    |>.append_text (.text " = " (by decide))
    |>.append_text hvalue

theorem prepare_selectText {table key : String} {columns : List String} (htable : IsName table)
    (hkey : IsName key) (hne : columns ≠ []) (hcolumns : ∀ name ∈ columns, IsName name)
    (s : String) :
    prepare (selectText table key columns "?") [.string s] =
      .ok (.query (rowQuery table key s columns)) := by
  have hbinds : Binds _ [.string s] _ := binds_selectText htable hkey hcolumns rfl
  obtain ⟨w, hw, hlisted⟩ := exists_spells_names hne hcolumns
  have hspells := (Spells.keyword "select" (by decide) (by decide)).blank <|
    hw.blank <| (Spells.keyword "from" (by decide) (by decide)).blank <|
    (Spells.name htable).blank <| (Spells.keyword "where" (by decide) (by decide)).blank <|
    (Spells.name hkey).blank <| Spells.equals.blank <| Spells.quote s
  rw [← toList_selectText] at hspells
  refine prepare_of_binds hbinds hspells ?_
  have hwhere : Where (⟨.keyword, "where"⟩ :: [⟨.identifier, key⟩, ⟨.operator, "="⟩,
      ⟨.string, ItemSql.Literal.quote s⟩]) _ :=
    .clause ⟨rfl, by decide⟩ (.one (.sign rfl (literal_quote s)))
  have hselect :
      Statement.Grammar.Select (w ++ ⟨.keyword, "from"⟩ :: ⟨.identifier, table⟩ :: _) _ :=
    .mk (.listed hlisted) ⟨rfl, by decide⟩ .none hwhere .unsaid .none (.inl rfl)
  have hsentence : Sentence (⟨.keyword, "select"⟩ :: _) (.query (rowQuery table key s columns)) :=
    .select ⟨rfl, by decide⟩ (.mk hselect .bare)
  simpa [List.append_assoc] using hsentence

end Prepare

/-! ## The row in the table -/

theorem mem_rowItem (row : List (String × Datum)) {e : String × Datum}
    (hnames : (row.map Prod.fst).Nodup) (he : e ∈ row) :
    (e.1, e.2.value) ∈ (rowItem row).entries := by
  have hentries : (Entries.names (row.map fun e ↦ (e.1, e.2.value))).Nodup := by
    rw [Entries.names, List.map_map]
    exact hnames
  rw [rowItem, NameMap.entries_ofList hentries]
  exact List.mem_map_of_mem he

namespace Table

variable {t : Table} {item : Item}

/-- The only item of a table is returned if it meets the conditions. -/
theorem exists_query_of_singleton {q : Query} (hitems : t.items = [item])
    (hlimit : q.limit? = none)
    (h : ∀ c ∈ q.conditions.entries, c.2.satisfiedBy (item.get? c.1) = true) :
    ∃ o, t.query q = some o ∧ o.items = [narrow q.attributesToGet item] := by
  have hfound : t.matching q.conditions = [item] := by
    rw [matching, hitems]
    exact List.filter_cons_of_pos (List.all_eq_true.mpr h)
  have hfew : (t.matching q.conditions).length ≤ 20 := by
    rw [hfound, List.length_singleton]
    decide
  obtain ⟨o, ho⟩ := exists_query_of_length_le hfew
  have hperm := items_query_perm ho hlimit
  rw [hfound] at hperm
  exact ⟨o, ho, List.perm_singleton.mp hperm⟩

end Table

theorem realizeRow_of_forall_mem {item : Item} {policy : NumberPolicy}
    {columns : List (String × Datum)} (h : ∀ e ∈ columns, item.get? e.1 = some e.2.value) :
    realizeRow (columns.map Prod.fst) item policy = .ok (columns.map fun e ↦ e.2.cell) := by
  rw [realizeRow_eq_ok_iff, List.forall₂_map_left_iff, List.forall₂_map_right_iff,
    List.forall₂_same]
  intro e he
  rw [h e he, e.2.realize_value]

/-! ## Rows that are delivered -/

/-- Asked to fill a buffer again and again, the cursor fills it with just these rows, and then it
says that none is left. -/
inductive Cursor.Delivers : Cursor → List (List Cell) → Prop
  | done {cursor : Cursor}
      (h : ∀ buffer : List Cell, buffer.length = cursor.columns.length →
        cursor.advance buffer = (.endOfData, buffer, cursor)) : Delivers cursor []
  | row {cursor rest : Cursor} {row : List Cell} {rows : List (List Cell)}
      (h : ∀ buffer : List Cell, buffer.length = cursor.columns.length →
        cursor.advance buffer = (.row, row, rest))
      (hrest : Delivers rest rows) : Delivers cursor (row :: rows)

theorem Cursor.delivers_of_rows {cursor : Cursor} {rows : List (List Cell)}
    (h : cursor.rows = rows.map .ok) : cursor.Delivers rows := by
  obtain ⟨columns, items?, policy⟩ := cursor
  induction rows generalizing items? with
  | nil =>
    refine .done fun buffer hbuffer ↦ ?_
    rw [advance, if_neg (not_not_intro hbuffer)]
    rcases items? with _ | ⟨_ | ⟨item, items⟩⟩
    · rfl
    · rfl
    · cases h
  | cons row rows ih =>
    rcases items? with _ | ⟨_ | ⟨item, items⟩⟩
    · cases h
    · cases h
    · obtain ⟨hrow, hrows⟩ := List.cons.inj h
      replace hrow : realizeRow columns item policy = .ok row := hrow
      refine .row (fun buffer hbuffer ↦ ?_) (ih (some items) hrows)
      rw [advance, if_neg (not_not_intro hbuffer), next]
      dsimp only
      rw [hrow]

namespace Store

variable {config : Config} {table key : String} {columns : List (String × Datum)}

open Token

/-- The table of a row: the text is its key. -/
def rowTable (key s : String) (columns : List (String × Datum)) : Table :=
  ⟨[⟨key, .hash⟩], [rowItem ((key, .text s) :: columns)]⟩

theorem exists_query_rowTable (table s : String)
    (hdistinct : (key :: columns.map Prod.fst).Nodup) :
    ∃ o, (rowTable key s columns).query (rowQuery table key s (columns.map Prod.fst)) = some o ∧
      o.items = [Table.narrow (columns.map Prod.fst) (rowItem ((key, .text s) :: columns))] := by
  refine Table.exists_query_of_singleton rfl rfl (List.forall_mem_singleton.mpr ?_)
  have hmem : (key, .string s) ∈ (rowItem ((key, .text s) :: columns)).entries :=
    mem_rowItem ((key, .text s) :: columns) hdistinct List.mem_cons_self
  have hheld : Condition.satisfiedBy ⟨.eq, [s].map .string⟩ (some (.string s)) = true :=
    Condition.satisfiedBy_texts.mpr ⟨s, List.mem_singleton_self s, rfl⟩
  rw [NameMap.get?_of_mem hmem]
  exact hheld

/-- The columns that a query lists are those of its rows. -/
theorem projection_rowQuery (table s : String) (hne : columns ≠ []) (items : List Item) :
    Projection.of items
      (Request.query (rowQuery table key s (columns.map Prod.fst))).projectedColumns? =
    ⟨columns.map Prod.fst, items⟩ := by
  have hlisted : ¬ (columns.map Prod.fst).isEmpty = true := by
    rw [List.isEmpty_iff, List.map_eq_nil_iff]
    exact hne
  rw [Request.projectedColumns?, rowQuery, if_neg hlisted]
  rfl

theorem delivers_rowTable (s : String) (policy : NumberPolicy)
    (hdistinct : (key :: columns.map Prod.fst).Nodup) :
    Cursor.Delivers (.of ⟨columns.map Prod.fst,
      [Table.narrow (columns.map Prod.fst) (rowItem ((key, .text s) :: columns))]⟩ policy)
      [columns.map fun e ↦ e.2.cell] := by
  refine Cursor.delivers_of_rows (List.singleton_inj.mpr ?_)
  refine realizeRow_of_forall_mem fun e he ↦ ?_
  rw [Table.get?_narrow (List.mem_map_of_mem he)]
  exact NameMap.get?_of_mem (mem_rowItem _ hdistinct (.tail _ he))

/-- A row that was inserted into a new table is the one that is found by its key, cell for cell. -/
theorem query_inserted (config : Config) (s : String)
    (hnames : ∀ name ∈ table :: key :: columns.map Prod.fst, IsName name)
    (hdistinct : (key :: columns.map Prod.fst).Nodup) (hne : columns ≠ []) :
    ∃ s₁ s₂ s₃ cursor,
      ((connection config).query (createText table key) []).run .empty = (some (.ok .empty), s₁) ∧
      ((connection config).query
        (insertText table (key :: columns.map Prod.fst) ("?" :: columns.map fun _ ↦ "?"))
        (.string s :: columns.map fun e ↦ e.2.param)).run s₁ = (some (.ok .empty), s₂) ∧
      ((connection config).query (selectText table key (columns.map Prod.fst) "?")
        [.string s]).run s₂ = (some (.ok cursor), s₃) ∧
      cursor.columns = columns.map Prod.fst ∧
      cursor.Delivers [columns.map fun e ↦ e.2.cell] := by
  obtain ⟨htable, hnames⟩ := List.forall_mem_cons.mp hnames
  obtain ⟨hkey, hcolumns⟩ := List.forall_mem_cons.mp hnames
  have hinsert :=
    prepare_insertText ((key, .text s) :: columns) htable (List.cons_ne_nil _ _) hnames
  have hselect := prepare_selectText htable hkey (mt List.map_eq_nil_iff.mp hne) hcolumns s
  have hcreated : perform ∅ (.createTable ⟨table, [⟨key, .string⟩], [⟨key, .hash⟩], {}⟩) =
      (some (.ok acknowledgement), (∅ : NameMap Table).insert table ⟨[⟨key, .hash⟩], []⟩) := rfl
  have hinserted : perform ((∅ : NameMap Table).insert table ⟨[⟨key, .hash⟩], []⟩)
      (.putItem ⟨table, rowItem ((key, .text s) :: columns)⟩) = (some (.ok acknowledgement),
        (NameMap.insert ∅ table ⟨[⟨key, .hash⟩], []⟩).insert table (rowTable key s columns)) := by
    rw [perform, onTable_of_get? NameMap.get?_insert_self]
    rfl
  obtain ⟨o, ho, hitems⟩ := exists_query_rowTable table s hdistinct
  refine ⟨_, _, _, _,
    query_connection_of_acknowledged (prepare_createText htable hkey) (by rintro ⟨⟩) hcreated,
    query_connection_of_acknowledged hinsert (by rintro ⟨⟩) hinserted,
    query_connection_of_found hselect NameMap.get?_insert_self ho, ?_⟩
  rw [projection_rowQuery table s hne, hitems]
  exact ⟨rfl, delivers_rowTable s config.numberPolicy hdistinct⟩

/-- A row of the least integer, a text of more than ASCII letters and the empty text. -/
def oddRow : List (String × Datum) :=
  [("a", .int Int64.minValue), ("b", .text "\"é\\"), ("c", .text "")]

theorem query_inserted_oddRow :
    (∀ name ∈ ["t", "k", "a", "b", "c"], IsName name) ∧
      ∃ s₁ s₂ s₃ cursor,
        ((connection {}).query "create table t (k string hash)" []).run .empty =
          (some (.ok .empty), s₁) ∧
        ((connection {}).query "insert into t (k, a, b, c) values (?, ?, ?, ?)"
          [.string "", .int Int64.minValue, .string "\"é\\", .string ""]).run s₁ =
          (some (.ok .empty), s₂) ∧
        ((connection {}).query "select a, b, c from t where k = ?" [.string ""]).run s₂ =
          (some (.ok cursor), s₃) ∧
        cursor.columns = ["a", "b", "c"] ∧
        cursor.Delivers [[.int Int64.minValue, .bytes (Text.utf8 "\"é\\"), .null]] := by
  have hnames : ∀ name ∈ ["t", "k", "a", "b", "c"], IsName name := by decide +kernel
  have hdistinct : ("k" :: oddRow.map Prod.fst).Nodup := by decide +kernel
  have hcreate : createText "t" "k" = "create table t (k string hash)" := by decide +kernel
  have hinsert : insertText "t" ("k" :: oddRow.map Prod.fst) ("?" :: oddRow.map fun _ ↦ "?") =
      "insert into t (k, a, b, c) values (?, ?, ?, ?)" := by decide +kernel
  have hselect : selectText "t" "k" (oddRow.map Prod.fst) "?" =
      "select a, b, c from t where k = ?" := by decide +kernel
  have h := query_inserted {} "" hnames hdistinct (List.cons_ne_nil _ _)
  rw [hcreate, hinsert, hselect] at h
  exact ⟨hnames, h⟩

end Store

end ItemSql
