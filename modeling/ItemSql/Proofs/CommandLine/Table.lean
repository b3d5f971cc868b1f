import ItemSql.Proofs.CommandLine

/-!
# Reading a table back

The table of an answer is a line of its columns and a line of each row, with tabs between the
fields. Nothing in a field is escaped. So the table can be read back, by cutting its text at line
feeds and the lines at tabs, just when no field has a tab or a line feed in it
(`readsAs_iff`): the fields that come of cutting never have one.

Strings come from the answer and may have any characters. `not_forall_readsAs` is about an answer
whose only row has one cell and reads as two.
-/

namespace ItemSql.CommandLine

/-- The fields of a line. -/
def lineFields (line : List Char) : List String :=
  (line.splitOn '\t').map String.ofList

/-- The text has lines with these fields, each ended by a line feed, and nothing behind them. -/
def ReadsAs (text : String) (table : List (List String)) : Prop :=
  ∃ lines, text.toList.splitOn '\n' = lines ++ [[]] ∧ lines.map lineFields = table

/-- A field that does not break its line. -/
structure Plain (field : String) : Prop where
  noTab : '\t' ∉ field.toList
  noLineFeed : '\n' ∉ field.toList

instance (field : String) : Decidable (Plain field) :=
  decidable_of_iff ('\t' ∉ field.toList ∧ '\n' ∉ field.toList)
    ⟨fun h ↦ ⟨h.1, h.2⟩, fun h ↦ ⟨h.noTab, h.noLineFeed⟩⟩

/-! ## Cutting and joining -/

section Lists

variable {α : Type} [DecidableEq α] {a x : α} {piece : List α}

/-- A piece has what the list has, except the value at which the list is cut. -/
theorem of_mem_splitOn {xs : List α} (h : piece ∈ xs.splitOn a) (hx : x ∈ piece) :
    x ∈ xs ∧ x ≠ a := by
  rw [List.splitOn_eq_splitOnP] at h
  induction xs generalizing piece with
  | nil =>
    obtain rfl : piece = [] := List.mem_singleton.mp h
    cases hx
  | cons y xs ih =>
    rw [List.splitOnP_cons_eq_if_modifyHead] at h
    split at h
    · rcases List.mem_cons.mp h with rfl | h
      · cases hx
      · exact (ih h hx).imp_left (.tail y)
    · -- `y` goes to the first of the pieces behind it.
      rename_i hy
      obtain ⟨first, pieces, hcut⟩ := List.exists_cons_of_ne_nil (List.splitOnP_ne_nil (· == a) xs)
      rw [hcut] at ih h
      rcases List.mem_cons.mp h with rfl | h
      · rcases List.mem_cons.mp hx with rfl | hx
        · exact ⟨List.mem_cons_self, fun hxa ↦ hy (beq_iff_eq.mpr hxa)⟩
        · exact (ih List.mem_cons_self hx).imp_left (.tail y)
      · exact (ih (List.mem_cons_of_mem first h) hx).imp_left (.tail y)

omit [DecidableEq α] in
theorem mem_intercalate_singleton {pieces : List (List α)} (h : x ∈ [a].intercalate pieces) :
    x = a ∨ ∃ piece ∈ pieces, x ∈ piece := by
  induction pieces with
  | nil => cases h
  | cons first pieces ih =>
    cases pieces with
    | nil =>
      rw [List.intercalate_singleton] at h
      exact .inr ⟨first, List.mem_cons_self, h⟩
    | cons second pieces =>
      rw [List.intercalate_cons_cons, List.append_assoc, List.mem_append, List.mem_append,
        List.mem_singleton] at h
      rcases h with h | h | h
      · exact .inr ⟨first, List.mem_cons_self, h⟩
      · exact .inl h
      · exact (ih h).imp_right fun ⟨piece, hpiece, hx⟩ ↦ ⟨piece, .tail first hpiece, hx⟩

/-- Cutting undoes ending each of the lines. -/
theorem splitOn_flatMap_concat {lines : List (List α)} (h : ∀ line ∈ lines, a ∉ line) :
    (lines.flatMap (· ++ [a])).splitOn a = lines ++ [[]] := by
  induction lines with
  | nil => rfl
  | cons line lines ih =>
    obtain ⟨hline, hlines⟩ := List.forall_mem_cons.mp h
    rw [List.flatMap_cons, List.append_assoc, List.singleton_append,
      List.splitOn_append_cons_self, ih hlines, List.splitOn_eq_singleton hline]
    rfl

end Lists

/-! ## Tables -/

variable {columns : List String} {rows : List (List Cell)} {entries : List (List String)}

/-- A line without the line feed that ends it. -/
def lineOf (fields : List String) : List Char :=
  ['\t'].intercalate (fields.map String.toList)

theorem toList_join_tableLine (entries : List (List String)) :
    (String.join (entries.map tableLine)).toList = (entries.map lineOf).flatMap (· ++ ['\n']) := by
  rw [String.toList_join, List.flatMap_map, List.flatMap_map]
  refine List.flatMap_congr fun fields _ ↦ ?_
  rw [tableLine, String.toList_append, String.toList_intercalate]
  rfl

theorem lineFields_lineOf {fields : List String} (hne : fields ≠ [])
    (h : ∀ field ∈ fields, '\t' ∉ field.toList) : lineFields (lineOf fields) = fields := by
  have hpieces : ∀ piece ∈ fields.map String.toList, '\t' ∉ piece := List.forall_mem_map.mpr h
  rw [lineFields, lineOf, List.splitOn_intercalate '\t' hpieces (by simpa using hne), List.map_map]
  exact (List.map_congr_left fun field _ ↦ String.ofList_toList).trans (List.map_id _)

theorem lineFeed_not_mem_lineOf {fields : List String} (h : ∀ field ∈ fields, '\n' ∉ field.toList) :
    '\n' ∉ lineOf fields := by
  intro hmem
  rcases mem_intercalate_singleton hmem with heq | ⟨piece, hpiece, hx⟩
  · exact absurd heq (by decide)
  · obtain ⟨field, hfield, rfl⟩ := List.mem_map.mp hpiece
    exact h field hfield hx

/-- The lines are as many as were written, unless a field has a line feed. -/
theorem splitOn_join_tableLine (h : ∀ fields ∈ entries, ∀ field ∈ fields, '\n' ∉ field.toList) :
    (String.join (entries.map tableLine)).toList.splitOn '\n' = entries.map lineOf ++ [[]] := by
  rw [toList_join_tableLine]
  exact splitOn_flatMap_concat <| List.forall_mem_map.mpr fun fields hfields ↦
    lineFeed_not_mem_lineOf (h fields hfields)

/-- What is read back is plain. -/
theorem ReadsAs.plain {text : String} (h : ReadsAs text entries) :
    ∀ fields ∈ entries, ∀ field ∈ fields, Plain field := by
  obtain ⟨lines, hcut, rfl⟩ := h
  refine List.forall_mem_map.mpr fun line hline ↦ List.forall_mem_map.mpr fun piece hpiece ↦ ?_
  have hline : line ∈ text.toList.splitOn '\n' := hcut ▸ List.mem_append_left _ hline
  rw [← String.toList_ofList (l := piece)] at hpiece
  exact ⟨fun hx ↦ (of_mem_splitOn hpiece hx).2 rfl, fun hx ↦
    (of_mem_splitOn hline (of_mem_splitOn hpiece hx).1).2 rfl⟩

/-- A table is read back from its text just when its fields are plain. -/
theorem readsAs_iff (hne : ∀ fields ∈ entries, fields ≠ []) :
    ReadsAs (String.join (entries.map tableLine)) entries ↔
      ∀ fields ∈ entries, ∀ field ∈ fields, Plain field := by
  refine ⟨ReadsAs.plain, fun h ↦ ⟨entries.map lineOf, ?_, ?_⟩⟩
  · exact splitOn_join_tableLine fun fields hfields field hfield ↦
      (h fields hfields field hfield).noLineFeed
  · rw [List.map_map]
    exact (List.map_congr_left fun fields hfields ↦ lineFields_lineOf (hne fields hfields)
      fun field hfield ↦ (h fields hfields field hfield).noTab).trans (List.map_id entries)

/-- Lines without fields are empty, and read as lines of one empty field. -/
theorem readsAs_replicate (n : Nat) :
    ReadsAs (String.join ((List.replicate n []).map tableLine)) (List.replicate n [""]) := by
  refine ⟨List.replicate n [], ?_, List.map_replicate⟩
  have hplain : ∀ fields ∈ List.replicate n ([] : List String), ∀ field ∈ fields,
      '\n' ∉ field.toList := fun fields h ↦ List.eq_of_mem_replicate h ▸ List.forall_mem_nil _
  rw [splitOn_join_tableLine hplain, List.map_replicate]
  rfl

/-! ## Decoded answers -/

/-- The columns and the cells as they are shown. -/
def entriesOf (columns : List String) (rows : List (List Cell)) : List (List String) :=
  columns :: rows.map (·.map Cell.display)

/-- The text is a table with a line of the columns and one of each row. -/
structure Tabulates (text : String) (columns : List String) (rows : List (List Cell)) : Prop where
  printed : text = printed columns rows
  /-- Only a line feed makes more lines of it, and only a tab makes more fields of a line. -/
  lines (h : ∀ fields ∈ entriesOf columns rows, ∀ field ∈ fields, '\n' ∉ field.toList) :
    ∃ lines, text.toList.splitOn '\n' = lines ++ [[]] ∧ List.Forall₂ (fun line fields ↦
      fields ≠ [] → (∀ field ∈ fields, '\t' ∉ field.toList) → lineFields line = fields)
        lines (entriesOf columns rows)
  /-- It is read back just when all of its fields are plain. -/
  readsAs_iff (h : columns ≠ []) : ReadsAs text (entriesOf columns rows) ↔
    (∀ name ∈ columns, Plain name) ∧ ∀ row ∈ rows, ∀ cell ∈ row, Plain cell.display
  /-- Without columns, each of its lines is empty. -/
  readsAs_of_eq_nil (h : columns = []) : ReadsAs text (List.replicate (rows.length + 1) [""])

theorem tabulates_printed (hwidth : ∀ row ∈ rows, row.length = columns.length) :
    Tabulates (printed columns rows) columns rows where
  printed := rfl
  lines h := by
    refine ⟨(entriesOf columns rows).map lineOf, splitOn_join_tableLine h, ?_⟩
    rw [List.forall₂_map_left_iff, List.forall₂_same]
    exact fun fields _ ↦ lineFields_lineOf
  readsAs_iff h := by
    have hne : ∀ fields ∈ entriesOf columns rows, fields ≠ [] := by
      refine List.forall_mem_cons.mpr ⟨h, List.forall_mem_map.mpr fun row hrow hnil ↦ h ?_⟩
      rw [← List.length_eq_zero_iff, ← hwidth row hrow, List.map_eq_nil_iff.mp hnil]
      rfl
    refine (CommandLine.readsAs_iff hne).trans ?_
    rw [entriesOf, List.forall_mem_cons, List.forall_mem_map]
    simp only [List.forall_mem_map]
  readsAs_of_eq_nil h := by
    subst h
    have hrows : rows.map (·.map Cell.display) = List.replicate rows.length [] := by
      refine List.eq_replicate_iff.mpr
        ⟨List.length_map _, List.forall_mem_map.mpr fun row hrow ↦ ?_⟩
      rw [List.length_eq_zero_iff.mp (hwidth row hrow)]
      rfl
    rw [CommandLine.printed, hrows]
    exact readsAs_replicate (rows.length + 1)

variable {config : Config} {answer : Text.Bytes} {statement? : Option String} {text : String}

theorem mapM_syntaxError_eq_ok_iff {request? : Option Request} :
    (statement?.mapM fun statement ↦ (Statement.parse statement).mapError Failure.syntaxError) =
      .ok request? ↔ statement?.mapM Statement.parse = .ok request? := by
  cases statement? with
  | none => exact ⟨fun h ↦ Except.ok.inj h ▸ rfl, fun h ↦ Except.ok.inj h ▸ rfl⟩
  | some statement =>
    rw [Option.mapM_some, Option.mapM_some]
    cases Statement.parse statement with
    | error e => exact iff_of_false nofun nofun
    | ok r => exact ⟨fun h ↦ Except.ok.inj h ▸ rfl, fun h ↦ Except.ok.inj h ▸ rfl⟩

/-- An answer is decoded if it is JSON that reports no error, if it is an output, if the statement
parses, and if no row fails. -/
theorem decode_eq_ok_iff :
    decode config answer statement? = .ok text ↔
      ∃ json output request?, Json.ofBytes answer = .ok json ∧ reportsError json = false ∧
        Json.Decode.bytes QueryOutput.decode answer = .ok output ∧
        statement?.mapM Statement.parse = .ok request? ∧
        table (.of (.of output.items (request?.bind (·.projectedColumns?)))
          config.numberPolicy) = .ok text := by
  rw [decode, bind_eq_ok_iff]
  constructor
  · rintro ⟨json, hjson, h⟩
    split at h
    · cases h
    · rename_i hreport
      obtain ⟨output, houtput, h⟩ := bind_eq_ok_iff.mp h
      obtain ⟨request?, hrequest, h⟩ := bind_eq_ok_iff.mp h
      exact ⟨json, output, request?, mapError_eq_ok_iff.mp hjson, eq_false_of_ne_true hreport,
        mapError_eq_ok_iff.mp houtput, mapM_syntaxError_eq_ok_iff.mp hrequest, h⟩
  · rintro ⟨json, output, request?, hjson, hreport, houtput, hrequest, h⟩
    refine ⟨json, mapError_eq_ok_iff.mpr hjson, ?_⟩
    rw [hreport, if_neg Bool.false_ne_true]
    exact bind_eq_ok_iff.mpr ⟨output, mapError_eq_ok_iff.mpr houtput,
      bind_eq_ok_iff.mpr ⟨request?, mapM_syntaxError_eq_ok_iff.mpr hrequest, h⟩⟩

/-- The rows of an answer's table are those of its items. -/
theorem rows_of_table {items : List Item} {policy : NumberPolicy}
    (h : table (.of ⟨columns, items⟩ policy) = .ok text) :
    ∃ rows, List.Forall₂ (fun item row ↦ realizeRow columns item policy = .ok row) items rows ∧
      text = printed columns rows := by
  obtain ⟨result, hresult⟩ := (Cursor.of ⟨columns, items⟩ policy).exists_drains
  rw [table_of_drains hresult] at h
  cases result with
  | error e => cases h
  | ok rows =>
    refine ⟨rows, ?_, (Except.ok.inj h).symm⟩
    have hrows := mapM_eq_ok_iff.mp (Cursor.drains_iff.mp hresult)
    exact List.forall₂_map_left_iff.mp hrows

/-- The table of an answer has a line of its columns and a line of each item's row, in their order.
It is read back just when no column and no shown cell has a tab or a line feed. -/
theorem decode_tabulates (h : decode config answer statement? = .ok text) :
    ∃ output request? columns rows,
      Json.Decode.bytes QueryOutput.decode answer = .ok output ∧
      statement?.mapM Statement.parse = .ok request? ∧
      columns = resolveColumns output.items (request?.bind (·.projectedColumns?)) ∧
      List.Forall₂ (fun item row ↦ realizeRow columns item config.numberPolicy = .ok row)
        output.items rows ∧
      Tabulates text columns rows := by
  obtain ⟨-, output, request?, -, -, houtput, hrequest, htable⟩ := decode_eq_ok_iff.mp h
  obtain ⟨rows, hrows, rfl⟩ := rows_of_table htable
  refine ⟨output, request?, _, rows, houtput, hrequest, rfl, hrows, tabulates_printed ?_⟩
  intro row hrow
  obtain ⟨item, -, hitem⟩ := exists_of_mem_right hrows hrow
  exact length_of_realizeRow_eq_ok hitem

/-! ## Written answers -/

theorem table_of_forall₂ {items : List Item} {policy : NumberPolicy}
    (h : List.Forall₂ (fun item row ↦ realizeRow columns item policy = .ok row) items rows) :
    table (.of ⟨columns, items⟩ policy) = .ok (printed columns rows) := by
  have hdrains : (Cursor.of ⟨columns, items⟩ policy).Drains (.ok rows) :=
    Cursor.drains_iff.mpr (mapM_eq_ok_iff.mpr (List.forall₂_map_left_iff.mpr h))
  rw [table_of_drains hdrains]
  rfl

/-- The table of an answer that is written for an output. -/
theorem decode_compact (config : Config) {output : QueryOutput} {request? : Option Request}
    (hunmeasured : output.Unmeasured) (hreport : reportsError output.toJson.ordered = false)
    (hrequest : statement?.mapM Statement.parse = .ok request?)
    (hcolumns : resolveColumns output.items (request?.bind (·.projectedColumns?)) = columns)
    (hrows : List.Forall₂ (fun item row ↦ realizeRow columns item config.numberPolicy = .ok row)
      output.items rows) :
    decode config (Text.utf8 output.toJson.compact) statement? = .ok (printed columns rows) := by
  have hdenotes := QueryOutput.denotes hunmeasured
  refine decode_eq_ok_iff.mpr ⟨output.toJson.ordered, output, request?,
    hdenotes.readable.ofBytes_compact (by decide), hreport, hdenotes.bytes, hrequest, ?_⟩
  rw [Projection.of, hcolumns]
  exact table_of_forall₂ hrows

/-- The rows of items are determined by them. -/
theorem rows_unique {policy : NumberPolicy} {items : List Item} {rows' : List (List Cell)}
    (h : List.Forall₂ (fun item row ↦ realizeRow columns item policy = .ok row) items rows)
    (h' : List.Forall₂ (fun item row ↦ realizeRow columns item policy = .ok row) items rows') :
    rows = rows' :=
  List.right_unique_forall₂' (fun _ _ _ hrow hrow' ↦ Except.ok.inj (hrow.symm.trans hrow')) h h'

/-- A number that is no integer is a zero of the table by lenient policy. -/
theorem decode_tabulates_mixedOutput :
    ∃ text, decode {} (Text.utf8 mixedOutput.toJson.compact) (some "select k from t") = .ok text ∧
      ReadsAs text [["k"], ["1"], ["0"]] := by
  have hparse : (some "select k from t").mapM Statement.parse =
      .ok (some (.query ⟨"t", ["k"], ∅, none, none⟩)) := by
    rw [Option.mapM_some, show Statement.parse "select k from t" =
      .ok (.query ⟨"t", ["k"], ∅, none, none⟩) by decide +kernel]
    rfl
  have hunmeasured : mixedOutput.Unmeasured := by
    rintro c ⟨⟩
  have hmixed : List.Forall₂ (fun item row ↦ realizeRow ["k"] item .lenient = .ok row)
      mixedOutput.items [[.int 1], [.int 0]] := by
    decide +kernel
  have hdecoded := decode_compact {} hunmeasured (by decide +kernel) hparse rfl hmixed
  obtain ⟨output, request?, columns, rows, houtput, hrequest, rfl, hrows, htabulates⟩ :=
    decode_tabulates hdecoded
  obtain rfl : mixedOutput = output :=
    Except.ok.inj ((QueryOutput.denotes hunmeasured).bytes.symm.trans houtput)
  obtain rfl := Except.ok.inj (hparse.symm.trans hrequest)
  obtain rfl := rows_unique hmixed hrows
  exact ⟨_, hdecoded, (htabulates.readsAs_iff (by decide)).mpr (by decide +kernel)⟩

/-- An item with a tab in its string. -/
def tabbedOutput : QueryOutput where
  count := 1
  items := [.ofList [("a", .string "x\ty")]]

/-- Not every table can be read back. -/
theorem not_forall_readsAs :
    ¬ ∀ (config : Config) (answer : Text.Bytes) (statement? : Option String) (text : String)
        (output : QueryOutput) (request? : Option Request) (columns : List String),
      decode config answer statement? = .ok text →
      Json.Decode.bytes QueryOutput.decode answer = .ok output →
      statement?.mapM Statement.parse = .ok request? →
      columns = resolveColumns output.items (request?.bind (·.projectedColumns?)) →
      columns ≠ [] →
      ∃ rows, List.Forall₂ (fun item row ↦ realizeRow columns item config.numberPolicy = .ok row)
        output.items rows ∧ ReadsAs text (entriesOf columns rows) := by
  intro h
  have hunmeasured : tabbedOutput.Unmeasured := by
    rintro c ⟨⟩
  have htabbed : List.Forall₂ (fun item row ↦ realizeRow ["a"] item .lenient = .ok row)
      tabbedOutput.items [[.bytes (Text.utf8 "x\ty")]] := by
    decide +kernel
  have hdecoded : decode {} (Text.utf8 tabbedOutput.toJson.compact) none = _ :=
    decode_compact {} hunmeasured (by decide +kernel) rfl rfl htabbed
  obtain ⟨rows, hrows, hreads⟩ := h {} _ none _ tabbedOutput none ["a"] hdecoded
    (QueryOutput.denotes hunmeasured).bytes rfl rfl (by decide)
  obtain rfl := rows_unique htabbed hrows
  exact absurd (hreads.plain ["x\ty"] (by decide +kernel) "x\ty" List.mem_cons_self) (by decide)

end ItemSql.CommandLine
