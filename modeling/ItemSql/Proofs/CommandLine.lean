import ItemSql.CommandLine
import ItemSql.Proofs.Cursor
import ItemSql.Proofs.Statement.Selection
import ItemSql.Proofs.Store.Exchange

/-!
# Decoding agrees with a connection

The command line makes a table of an answer that it finds in a file. It never binds or sends
anything: it parses the statement for the columns, decodes the answer and walks through the rows. A
connection binds the statement first, and sends a request before it has an answer. If the answer is
the same, so is what comes of it. A statement that parses has nothing to bind, so both have the same
request (`Statement.bind_of_sentence`); and both make their cursor of the same two things, the
request and the answer.

What is left is that the command line prints what the cursor delivers. It fills one buffer again and
again, and that is to say that it takes all rows that are left, up to the first that fails
(`Cursor.drain_eq`), whatever the buffer held before.
-/

namespace ItemSql

/-- What comes of draining a cursor, whatever buffer of the right width is brought. -/
def Cursor.Drains (cursor : Cursor) (result : Except RowError (List (List Cell))) : Prop :=
  ∀ buffer : List Cell, buffer.length = cursor.columns.length → cursor.drain buffer = result

theorem Cursor.drains_iff {cursor : Cursor} {result : Except RowError (List (List Cell))} :
    cursor.Drains result ↔ cursor.rows.mapM id = result := by
  constructor
  · intro h
    have hwidth : (List.replicate cursor.columns.length Cell.null).length = cursor.columns.length :=
      List.length_replicate
    rw [← drain_eq hwidth, h _ hwidth]
  · rintro rfl buffer hwidth
    exact drain_eq hwidth

theorem Cursor.exists_drains (cursor : Cursor) : ∃ result, cursor.Drains result :=
  ⟨_, drains_iff.mpr rfl⟩

theorem Cursor.Drains.unique {cursor : Cursor} {result result' : Except RowError (List (List Cell))}
    (h : cursor.Drains result) (h' : cursor.Drains result') : result = result' := by
  rw [← drains_iff.mp h, ← drains_iff.mp h']

/-- A statement that parses is sent as it stands. -/
theorem Connection.query_of_parse {m : Type → Type} [Monad m] [LawfulMonad m] (c : Connection m)
    {statement : String} {r : Request} (h : Statement.parse statement = .ok r) :
    c.query statement [] = do
      let response ← c.transport (r.operation.target c.config.service) (Text.utf8 r.body)
      return r.resultOf c.config response := by
  have hbind : bind statement [] = .ok statement :=
    Statement.bind_of_sentence (Statement.sentence_of_parse h)
  rw [query, prepare_of_parse hbind h]
  exact c.execute_eq r

/-- The transport that does something with each request and comes back with one answer. -/
def answering {m : Type → Type} [Monad m] (act : String → Text.Bytes → m Unit)
    (answer : Text.Bytes) : Transport m := fun target body ↦ do
  act target body
  return .ok answer

/-- The result of a statement is made of the answer. -/
theorem Connection.query_answering {m : Type → Type} [Monad m] [LawfulMonad m] (config : Config)
    (act : String → Text.Bytes → m Unit) (answer : Text.Bytes) {statement : String} {r : Request}
    (h : Statement.parse statement = .ok r) :
    Connection.query ⟨answering act answer, config⟩ statement [] = do
      act (r.operation.target config.service) (Text.utf8 r.body)
      return cursorOf config r answer := by
  rw [query_of_parse _ h]
  simp only [answering, bind_assoc, pure_bind, Request.resultOf]

namespace CommandLine

/-! ## Answers that report no error -/

theorem reportsError_eq_false {json : Json}
    (h : ∀ members, json = .object members → "__type" ∉ members.map Prod.fst) :
    reportsError json = false := by
  cases json with
  | object members =>
    rw [reportsError, List.any_eq_false]
    intro member hmember htype
    exact h members rfl (of_decide_eq_true htype ▸ List.mem_map_of_mem hmember)
  | _ => rfl

/-! ## What is printed -/

/-- The lines of a result, with tabs between the cells: one of the columns and one of each row. -/
def printed (columns : List String) (rows : List (List Cell)) : String :=
  String.join ((columns :: rows.map fun row ↦ row.map Cell.display).map fun cells ↦
    String.intercalate "\t" cells ++ "\n")

theorem printed_eq (columns : List String) (rows : List (List Cell)) :
    printed columns rows =
      tableLine columns ++ String.join (rows.map fun row ↦ tableLine (row.map Cell.display)) := by
  rw [printed, List.map_cons, String.join_cons, List.map_map]
  rfl

/-- The table of a cursor holds what the cursor delivers, unless a row fails. -/
theorem table_of_drains {cursor : Cursor} {result : Except RowError (List (List Cell))}
    (h : cursor.Drains result) :
    table cursor = (result.map (printed cursor.columns)).mapError .row := by
  rw [table, h _ List.length_replicate]
  cases result with
  | error e => rfl
  | ok rows => exact congrArg Except.ok (printed_eq cursor.columns rows).symm

/-! ## Two ways to a result -/

/-- What is decoded from an answer agrees with the result of a query: one succeeds if the other
does and its cursor can be drained, and they fail with the same error. An error of decoding has its
place in the answer. -/
structure Agree (place : Json.DecodeError → Json.Place) (decoded : Except Failure String)
    (queried : Except QueryError Cursor) : Prop where
  ok_iff (text : String) : decoded = .ok text ↔
    ∃ cursor rows, queried = .ok cursor ∧ cursor.Drains (.ok rows) ∧
      text = printed cursor.columns rows
  row_iff (e : RowError) : decoded = .error (.row e) ↔
    ∃ cursor, queried = .ok cursor ∧ cursor.Drains (.error e)
  codec_iff (e : Json.DecodeError) :
    decoded = .error (.codec e (place e)) ↔ queried = .error (.codec e)
  decoded_error {failure : Failure} : decoded = .error failure →
    (∃ e, failure = .row e) ∨ ∃ e, failure = .codec e (place e)
  queried_error {e : QueryError} : queried = .error e → ∃ e', e = .codec e'

variable {place : Json.DecodeError → Json.Place}

theorem agree_of_drains_ok {cursor : Cursor} {rows : List (List Cell)}
    (h : cursor.Drains (.ok rows)) :
    Agree place (.ok (printed cursor.columns rows)) (.ok cursor) where
  ok_iff text := by
    constructor
    · rintro ⟨⟩
      exact ⟨cursor, rows, rfl, h, rfl⟩
    · rintro ⟨_, rows', ⟨⟩, h', rfl⟩
      obtain rfl := Except.ok.inj (h.unique h')
      rfl
  row_iff e := by
    refine iff_of_false nofun ?_
    rintro ⟨_, ⟨⟩, h'⟩
    cases h.unique h'
  codec_iff e := iff_of_false nofun nofun
  decoded_error := nofun
  queried_error := nofun

theorem agree_of_drains_error {cursor : Cursor} {e : RowError} (h : cursor.Drains (.error e)) :
    Agree place (.error (.row e)) (.ok cursor) where
  ok_iff text := by
    refine iff_of_false nofun ?_
    rintro ⟨_, rows, ⟨⟩, h', -⟩
    cases h.unique h'
  row_iff e' := by
    constructor
    · rintro ⟨⟩
      exact ⟨cursor, rfl, h⟩
    · rintro ⟨_, ⟨⟩, h'⟩
      obtain rfl := Except.error.inj (h.unique h')
      rfl
  codec_iff e := iff_of_false nofun nofun
  decoded_error h := .inl ⟨e, (Except.error.inj h).symm⟩
  queried_error := nofun

theorem agree_table (cursor : Cursor) : Agree place (table cursor) (.ok cursor) := by
  obtain ⟨result, hresult⟩ := cursor.exists_drains
  rw [table_of_drains hresult]
  cases result with
  | ok rows => exact agree_of_drains_ok hresult
  | error e => exact agree_of_drains_error hresult

theorem agree_codec (e : Json.DecodeError) :
    Agree place (.error (.codec e (place e))) (.error (.codec e)) where
  ok_iff text := iff_of_false nofun (by rintro ⟨_, _, ⟨⟩, -⟩)
  row_iff e' := iff_of_false nofun (by rintro ⟨_, ⟨⟩, -⟩)
  codec_iff e' := by
    constructor <;> rintro ⟨⟩ <;> rfl
  decoded_error h := .inr ⟨e, (Except.error.inj h).symm⟩
  queried_error h := ⟨e, (Except.error.inj h).symm⟩

variable {config : Config} {answer : Text.Bytes} {statement : String} {p : Query} {json : Json}

/-- An answer that reports no error is read as what a query answers. -/
theorem decode_eq (hparse : Statement.parse statement = .ok (.query p))
    (hjson : Json.ofBytes answer = .ok json) (hreport : reportsError json = false) :
    decode config answer (some statement) =
      match Json.Decode.bytes QueryOutput.decode answer with
      | .ok output =>
        table (.of (.of output.items (Request.query p).projectedColumns?) config.numberPolicy)
      | .error e => .error (.codec e (Json.placeOf QueryOutput.decode answer e)) := by
  rw [decode, hjson]
  change (if reportsError json = true then _ else _) = _
  rw [hreport, if_neg Bool.false_ne_true, Option.mapM_some, hparse]
  cases Json.Decode.bytes QueryOutput.decode answer <;> rfl

theorem cursorOf_query (config : Config) (p : Query) (answer : Text.Bytes) :
    cursorOf config (.query p) answer =
      match Json.Decode.bytes QueryOutput.decode answer with
      | .ok output =>
        .ok (.of (.of output.items (Request.query p).projectedColumns?) config.numberPolicy)
      | .error e => .error (.codec e) :=
  if_pos rfl

/-- Decoding an answer with a query, and running the query over a transport that has this answer,
come to the same. -/
theorem decode_eq_query {m : Type → Type} [Monad m] [LawfulMonad m] (config : Config)
    (act : String → Text.Bytes → m Unit) (hparse : Statement.parse statement = .ok (.query p))
    (hjson : Json.ofBytes answer = .ok json)
    (hclean : ∀ members, json = .object members → "__type" ∉ members.map Prod.fst) :
    ∃ queried : Except QueryError Cursor,
      (Connection.query ⟨answering act answer, config⟩ statement [] = do
        act (Operation.query.target config.service) (Text.utf8 (Request.query p).body)
        return queried) ∧
      Agree (Json.placeOf QueryOutput.decode answer) (decode config answer (some statement))
        queried := by
  refine ⟨cursorOf config (.query p) answer, ?_, ?_⟩
  · exact Connection.query_answering config act answer hparse
  · rw [decode_eq hparse hjson (reportsError_eq_false hclean), cursorOf_query]
    cases Json.Decode.bytes QueryOutput.decode answer with
    | ok output => exact agree_table _
    | error e => exact agree_codec e

/-- Two items, the second of which has a number that is no integer. -/
def mixedOutput : QueryOutput where
  count := 2
  items := [.ofList [("k", .number "1")], .ofList [("k", .number "1.5")]]

/-- Records the target of a request. -/
def recordTarget (target : String) (_ : Text.Bytes) : StateM (List String) Unit :=
  modify (· ++ [target])

/-- The answer is read by strict policy, so the second row fails. -/
theorem decode_eq_query_mixedOutput :
    ∃ queried : Except QueryError Cursor,
      (Connection.query ⟨answering recordTarget (Text.utf8 mixedOutput.toJson.compact),
          { strictNumbers := true }⟩ "select k from t" [] = do
        modify (· ++ ["DynamoDB_20120810.Query"])
        return queried) ∧
      Agree (Json.placeOf QueryOutput.decode (Text.utf8 mixedOutput.toJson.compact))
        (decode { strictNumbers := true } (Text.utf8 mixedOutput.toJson.compact)
          (some "select k from t")) queried ∧
      ∃ cursor, queried = .ok cursor ∧ cursor.Drains (.error (.invalidNumber "k" "1.5")) := by
  have hparse : Statement.parse "select k from t" = .ok (.query ⟨"t", ["k"], ∅, none, none⟩) := by
    decide +kernel
  have hunmeasured : mixedOutput.Unmeasured := by
    rintro c ⟨⟩
  have hjson := (QueryOutput.denotes hunmeasured).readable.ofBytes_compact (by decide)
  have hclean : ∀ members, mixedOutput.toJson.ordered = .object members →
      "__type" ∉ members.map Prod.fst := by
    intro members h
    obtain rfl := (Json.object.inj h).symm
    decide +kernel
  have hdecoded : decode { strictNumbers := true } (Text.utf8 mixedOutput.toJson.compact)
      (some "select k from t") = .error (.row (.invalidNumber "k" "1.5")) := by
    have hdrains : Cursor.Drains (.of ⟨["k"], mixedOutput.items⟩ .strict)
        (.error (.invalidNumber "k" "1.5")) :=
      Cursor.drains_iff.mpr (by decide +kernel)
    rw [decode_eq hparse hjson (reportsError_eq_false hclean),
      (QueryOutput.denotes hunmeasured).bytes]
    exact table_of_drains hdrains
  obtain ⟨queried, hqueried, hagree⟩ :=
    decode_eq_query { strictNumbers := true } recordTarget hparse hjson hclean
  exact ⟨queried, hqueried, hagree, (hagree.row_iff _).mp hdecoded⟩

end CommandLine

end ItemSql
