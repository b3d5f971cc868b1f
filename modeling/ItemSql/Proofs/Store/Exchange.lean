import ItemSql.Proofs.ServiceError
import ItemSql.Proofs.Statement.Parse
import ItemSql.Proofs.Store.Failure
import ItemSql.Proofs.Store.Sorting
import ItemSql.Proofs.Wire.RoundTrip

/-!
# A connection over the store

A statement that cannot be bound or parsed is never sent. Any other is one request, and the store
takes it for what it is: the target names its operation whatever the service is called, the body is
decoded as its payload, and the answer is read as it was written. So the wire between a connection
and the store does not show, and what comes of a statement is what `Store.perform` makes of its
request.

A statement fails without a trace, too. The one operation that can stop halfway is an update with a
change that carries no value, and no statement asks for such a change. A query leaves the tables as
they are even where it breaks off.
-/

namespace ItemSql

/-! ## What a statement asks for -/

/-- Every change that the request asks for carries a value. -/
def Request.Carries : Request → Prop
  | .updateItem p => Table.AllCarry p.updates.toList
  | _ => True

theorem Expression.allCarry_updates (clause : List Expression) :
    Table.AllCarry (updates clause).toList := by
  suffices h : ∀ m : NameMap AttributeUpdate, Table.AllCarry m.toList →
      Table.AllCarry (clause.foldl addUpdate m).toList from h ∅ (by rintro u ⟨⟩)
  induction clause with
  | nil => exact fun m hm ↦ hm
  | cons e clause ih =>
    refine fun m hm ↦ ih _ ?_
    rw [addUpdate]
    cases e.values with
    | nil => exact hm
    | cons value values =>
      intro u (hu : u ∈ (m.insert e.name (.put value)).entries)
      rw [NameMap.entries_insert] at hu
      rcases Entries.mem_put hu with rfl | hu
      · exact Option.some_ne_none value
      · exact hm u hu

open Statement.Grammar in
theorem Request.carries_of_sentence {symbols : List Token.Symbol} {r : Request}
    (h : Sentence symbols r) : r.Carries := by
  rcases h with ⟨-, ⟨⟨⟩, -⟩⟩ | ⟨-, ⟨⟨⟩, -⟩⟩ | ⟨-, ⟨⟨⟩, -⟩⟩ | ⟨-, ⟨⟨⟩, -⟩⟩ | ⟨-, ⟨⟨⟩, -⟩⟩ |
    ⟨-, ⟨⟨⟩, -⟩⟩
  case update => exact Expression.allCarry_updates _
  all_goals trivial

theorem Request.carries_of_parse {source : String} {r : Request}
    (h : Statement.parse source = .ok r) : r.Carries :=
  carries_of_sentence (Statement.sentence_of_parse h)

theorem prepare_of_bind {statement source : String} {params : List Param}
    (hbind : bind statement params = .ok source) :
    prepare statement params = (Statement.parse source).mapError .syntaxError := by
  rw [prepare, hbind]
  rfl

theorem prepare_of_parse {statement source : String} {params : List Param} {r : Request}
    (hbind : bind statement params = .ok source) (hparse : Statement.parse source = .ok r) :
    prepare statement params = .ok r := by
  rw [prepare_of_bind hbind, hparse]
  rfl

/-- A request comes of a text. -/
theorem exists_parse_of_prepare {statement : String} {params : List Param} {r : Request}
    (h : prepare statement params = .ok r) : ∃ source, Statement.parse source = .ok r := by
  cases hbind : bind statement params with
  | error e =>
    rw [prepare, hbind] at h
    cases h
  | ok source =>
    rw [prepare_of_bind hbind] at h
    cases hparse : Statement.parse source with
    | error e =>
      rw [hparse] at h
      cases h
    | ok r' =>
      rw [hparse] at h
      obtain rfl := Except.ok.inj h
      exact ⟨source, hparse⟩

/-! ## Requests on the wire -/

theorem Operation.ofWireName?_wireName (op : Operation) : ofWireName? op.wireName = some op := by
  cases op <;> rfl

theorem Operation.point_notMem_wireName (op : Operation) : '.' ∉ op.wireName.toList := by
  cases op <;> decide

/-- What a connection makes of the response to a request. -/
def Request.resultOf (config : Config) (r : Request) : Response → Except QueryError Cursor
  | .ok answer => cursorOf config r answer
  | .error e => .error (.transport e)

/-- An execution is one call of the transport, whatever the transport is. -/
theorem Connection.execute_eq {m : Type → Type} [Monad m] [LawfulMonad m] (c : Connection m)
    (r : Request) :
    c.execute r = do
      let response ← c.transport (r.operation.target c.config.service) (Text.utf8 r.body)
      return r.resultOf c.config response := by
  rw [execute]
  refine bind_congr fun response ↦ ?_
  cases response <;> rfl

/-- Over a transport that may break off, so does the execution, and nowhere else. -/
theorem Connection.execute_of_transport {σ : Type} {c : Connection (OptionT (StateM σ))}
    {r : Request} {s s' : σ} {response? : Option Response}
    (h : (c.transport (r.operation.target c.config.service) (Text.utf8 r.body)).run s =
      (response?, s')) :
    (c.execute r).run s = (response?.map (r.resultOf c.config), s') := by
  rw [execute_eq, OptionT.run_bind]
  generalize (c.transport (r.operation.target c.config.service) (Text.utf8 r.body)).run = call at *
  have hbind {β : Type} (next : Option Response → StateM σ β) :
      (call >>= next) s = next (call s).1 (call s).2 := rfl
  rw [Option.elimM, hbind, h]
  cases response? <;> rfl

namespace Store

/-- A target names its operation, whatever stands before it. -/
theorem operationOf?_target (op : Operation) (service : String) :
    operationOf? (op.target service) = some op := by
  have hchars : (op.target service).toList = service.toList ++ '.' :: op.wireName.toList := by
    rw [Operation.target, String.toList_append, String.toList_append, List.append_assoc]
    rfl
  rw [operationOf?, hchars, ErrorCode.behindLast?_append op.point_notMem_wireName,
    Option.bind_some, String.ofList_toList, op.ofWireName?_wireName]

theorem bytes_body (r : Request) :
    Json.Decode.bytes (Request.decode r.operation) (Text.utf8 r.body) = .ok r :=
  r.denotes.bytes

theorem ofBytes_body (r : Request) :
    Json.ofBytes (Text.utf8 r.body) = .ok r.toJson.ordered :=
  r.denotes.readable.ofBytes_compact (by decide)

/-- The store does what a request asks for, once it has recorded it. -/
theorem send_body (s : Store) (service : String) (r : Request) :
    s.send (r.operation.target service) (Text.utf8 r.body) =
      ((perform s.tables r).1.map respond,
        ⟨(perform s.tables r).2,
          s.requests ++ [(r.operation.target service, r.toJson.ordered)]⟩) := by
  rw [send, ofBytes_body]
  dsimp only
  rw [answer, operationOf?_target]
  dsimp only
  rw [bytes_body]

/-! ## What comes of a request -/

variable {config : Config} {tables tables' : NameMap Table} {r : Request}

/-- What a connection answers to a request, if anything, and the tables that this leaves. -/
inductive Answers (config : Config) (tables : NameMap Table) :
    Request → Option (Except QueryError Cursor) → NameMap Table → Prop
  /-- The request fails and changes nothing. -/
  | refused {r : Request} {e : ServiceError}
      (h : perform tables r = (some (.error e), tables)) :
      Answers config tables r (some (.error (.transport (.service e)))) tables
  /-- The request is done, and there is nothing to return. -/
  | acknowledged {r : Request} {tables' : NameMap Table} (hr : r.operation ≠ .query)
      (h : perform tables r = (some (.ok acknowledgement), tables')) :
      Answers config tables r (some (.ok .empty)) tables'
  /-- The items that the table of a query answers are returned. -/
  | found {p : Query} {t : Table} {o : QueryOutput} (ht : tables.get? p.tableName = some t)
      (ho : t.query p = some o)
      (h : perform tables (.query p) = (some (.ok o.toJson.compact), tables)) :
      Answers config tables (.query p)
        (some (.ok (.of (.of o.items (Request.query p).projectedColumns?) config.numberPolicy)))
        tables
  /-- The table of a query finds items that are too much for the sort, and there is no answer. -/
  | brokenOff {p : Query} {t : Table} (ht : tables.get? p.tableName = some t)
      (hitems : t.Unsortable (t.matching p.conditions))
      (h : perform tables (.query p) = (none, tables)) :
      Answers config tables (.query p) none tables

theorem onTable_of_get? {table : String} {change : Table → Answer × Table} {t : Table}
    (h : tables.get? table = some t) :
    onTable tables table change = ((change t).1, tables.insert table (change t).2) := by
  rw [onTable, h]

theorem onTable_of_get?_eq_none {table : String} {change : Table → Answer × Table}
    (h : tables.get? table = none) :
    onTable tables table change = (some (.error (tableNotFound table)), tables) := by
  rw [onTable, h]

theorem onTable_acknowledged_or_refused {table : String} {change : Table → Answer × Table}
    (h : ∀ t, (change t).1 = some (.ok acknowledgement)) :
    (∃ tables', onTable tables table change = (some (.ok acknowledgement), tables')) ∨
      ∃ e, onTable tables table change = (some (.error e), tables) := by
  cases htable : tables.get? table with
  | none => exact .inr ⟨_, onTable_of_get?_eq_none htable⟩
  | some t => exact .inl ⟨_, by rw [onTable_of_get? htable, h]⟩

/-- A request that returns no rows is done, or it fails and changes nothing. -/
theorem perform_acknowledged_or_refused (tables : NameMap Table) (hr : r.operation ≠ .query)
    (hcarries : r.Carries) :
    (∃ tables', perform tables r = (some (.ok acknowledgement), tables')) ∨
      ∃ e, perform tables r = (some (.error e), tables) := by
  cases r with
  | query p => exact absurd rfl hr
  | putItem p =>
    rw [perform]
    refine onTable_acknowledged_or_refused ?_
    exact fun _ ↦ rfl
  | deleteItem p =>
    rw [perform]
    refine onTable_acknowledged_or_refused ?_
    exact fun _ ↦ rfl
  | updateItem p =>
    refine onTable_acknowledged_or_refused fun t ↦ ?_
    have hdone : (t.update p.key p.updates).2 = none := by
      cases hposition : t.position? p.key with
      | none =>
        obtain ⟨item, hitem⟩ := Table.exists_applyUpdates_eq hcarries p.key
        rw [Table.update_of_position?_eq_none hposition, hitem]
      | some i =>
        obtain ⟨item, hitem, -⟩ := Table.exists_getElem?_of_position? hposition
        obtain ⟨item', hitem'⟩ := Table.exists_applyUpdates_eq hcarries item
        rw [Table.update_of_position?_eq_some hposition hitem, hitem']
    cases hupdate : t.update p.key p.updates with
    | mk t' failed? =>
      rw [hupdate] at hdone
      obtain rfl : failed? = none := hdone
      rfl
  | createTable p =>
    by_cases h : tables.contains p.tableName = true
    · exact .inr ⟨_, if_pos h⟩
    · exact .inl ⟨_, if_neg h⟩
  | deleteTable p =>
    by_cases h : tables.contains p.tableName = true
    · exact .inl ⟨_, if_pos h⟩
    · exact .inr ⟨_, if_neg h⟩

theorem perform_query_of_get? {p : Query} {t : Table} (h : tables.get? p.tableName = some t) :
    perform tables (.query p) = ((t.query p).map fun o ↦ .ok o.toJson.compact, tables) := by
  rw [perform, onTable_of_get? h, NameMap.insert_eq_self_iff.mpr h]

theorem respond_ok (answer : String) : respond (.ok answer) = .ok (Text.utf8 answer) :=
  rfl

/-- The answer of a table is read as it was written. -/
theorem resultOf_query (config : Config) {t : Table} {p : Query} {o : QueryOutput}
    (h : t.query p = some o) :
    (Request.query p).resultOf config (.ok (Text.utf8 o.toJson.compact)) =
      .ok (.of (.of o.items (Request.query p).projectedColumns?) config.numberPolicy) := by
  have hrows : (Request.query p).operation.returnsRows = true := rfl
  have hunmeasured : o.Unmeasured := by
    obtain ⟨arranged, -, rfl⟩ := Table.query_eq_some_iff.mp h
    rintro c ⟨⟩
  rw [Request.resultOf, cursorOf, if_pos hrows, (QueryOutput.denotes hunmeasured).bytes]

theorem resultOf_of_ne (hr : r.operation ≠ .query) (answer : Text.Bytes) :
    r.resultOf config (.ok answer) = .ok .empty := by
  rw [Request.resultOf, cursorOf, Operation.returnsRows, decide_eq_false hr,
    if_neg Bool.false_ne_true]

theorem answers_perform (hcarries : r.Carries) :
    Answers config tables r ((perform tables r).1.map (r.resultOf config ∘ respond))
      (perform tables r).2 := by
  by_cases hr : r.operation = .query
  · obtain ⟨p, rfl⟩ : ∃ p, r = .query p := by
      cases r with
      | query p => exact ⟨p, rfl⟩
      | _ => cases hr
    cases htable : tables.get? p.tableName with
    | none =>
      have h : perform tables (.query p) = (some (.error (tableNotFound p.tableName)), tables) := by
        rw [perform, onTable_of_get?_eq_none htable]
      rw [h]
      exact .refused h
    | some t =>
      have h := perform_query_of_get? htable
      cases hquery : t.query p with
      | none =>
        rw [hquery] at h
        rw [h]
        exact .brokenOff htable (Table.unsortable_of_query_eq_none hquery) h
      | some o =>
        rw [hquery] at h
        rw [h, Option.map_some, Option.map_some, Function.comp_apply, respond_ok,
          resultOf_query config hquery]
        exact .found htable hquery h
  · rcases perform_acknowledged_or_refused tables hr hcarries with
      ⟨tables', h⟩ | ⟨e, h⟩
    · rw [h, Option.map_some, Function.comp_apply, respond_ok, resultOf_of_ne hr]
      exact .acknowledged hr h
    · rw [h]
      exact .refused h

/-! ## Statements -/

/-- A connection over the store. What is run over it may break off. -/
def connection (config : Config) : Connection (OptionT (StateM Store)) :=
  ⟨transport, config⟩

theorem transport_connection (target : String) (body : Text.Bytes) (s : Store) :
    ((connection config).transport target body).run s = s.send target body :=
  rfl

theorem execute_connection (s : Store) :
    ((connection config).execute r).run s =
      ((perform s.tables r).1.map (r.resultOf config ∘ respond),
        ⟨(perform s.tables r).2,
          s.requests ++ [(r.operation.target config.service, r.toJson.ordered)]⟩) := by
  rw [← Option.map_map]
  refine Connection.execute_of_transport ?_
  rw [transport_connection]
  exact send_body s config.service r

theorem query_connection_of_ok {statement : String} {params : List Param}
    (h : prepare statement params = .ok r) (s : Store) :
    ((connection config).query statement params).run s = ((connection config).execute r).run s := by
  rw [Connection.query, h]

theorem query_connection_of_error {statement : String} {params : List Param} {e : QueryError}
    (h : prepare statement params = .error e) (s : Store) :
    ((connection config).query statement params).run s = (some (.error e), s) := by
  rw [Connection.query, h]
  rfl

theorem query_connection_of_acknowledged {s : Store} {statement : String} {params : List Param}
    (h : prepare statement params = .ok r) (hr : r.operation ≠ .query)
    (hperform : perform s.tables r = (some (.ok acknowledgement), tables')) :
    ((connection config).query statement params).run s = (some (.ok .empty),
      ⟨tables', s.requests ++ [(r.operation.target config.service, r.toJson.ordered)]⟩) := by
  rw [query_connection_of_ok h, execute_connection, hperform, Option.map_some,
    Function.comp_apply, respond_ok, resultOf_of_ne hr]

theorem query_connection_of_found {s : Store} {statement : String} {params : List Param} {p : Query}
    {t : Table} {o : QueryOutput} (h : prepare statement params = .ok (.query p))
    (ht : s.tables.get? p.tableName = some t) (ho : t.query p = some o) :
    ((connection config).query statement params).run s =
      (some (.ok (.of (.of o.items (Request.query p).projectedColumns?) config.numberPolicy)),
        ⟨s.tables, s.requests ++
          [(Operation.query.target config.service, p.toJson.ordered)]⟩) := by
  rw [query_connection_of_ok h, execute_connection, perform_query_of_get? ht, ho, Option.map_some,
    Option.map_some, Function.comp_apply, respond_ok, resultOf_query config ho]
  rfl

theorem query_connection_of_brokenOff {s : Store} {statement : String} {params : List Param}
    {p : Query} {t : Table} (h : prepare statement params = .ok (.query p))
    (ht : s.tables.get? p.tableName = some t) (hnone : t.query p = none) :
    ((connection config).query statement params).run s =
      (none, ⟨s.tables, s.requests ++
        [(Operation.query.target config.service, p.toJson.ordered)]⟩) := by
  rw [query_connection_of_ok h, execute_connection, perform_query_of_get? ht, hnone]
  rfl

/-- What comes of a statement that is sent as a request. -/
structure Exchanged (config : Config) (s : Store) (r : Request)
    (result? : Option (Except QueryError Cursor)) (s' : Store) : Prop where
  /-- The target names the operation of the request. -/
  operation : operationOf? (config.service ++ "." ++ r.operation.wireName) = some r.operation
  /-- The body is decoded as the request. -/
  payload : Json.Decode.bytes (Request.decode r.operation) (Text.utf8 r.body) = .ok r
  /-- The target and the body are recorded, and nothing else is. -/
  recorded : ∃ json, Json.ofBytes (Text.utf8 r.body) = .ok json ∧
    s'.requests = s.requests ++ [(config.service ++ "." ++ r.operation.wireName, json)]
  answers : Answers config s.tables r result? s'.tables

/-- A statement over the store changes nothing if it cannot be bound or parsed, and else is one
request that the store does as it was asked for. -/
theorem query_connection (config : Config) (s : Store) (statement : String)
    (params : List Param) :
    match bind statement params with
    | .error e => ((connection config).query statement params).run s = (some (.error (.bind e)), s)
    | .ok source =>
      match Statement.parse source with
      | .error e =>
        ((connection config).query statement params).run s = (some (.error (.syntaxError e)), s)
      | .ok r => Exchanged config s r (((connection config).query statement params).run s).1
          (((connection config).query statement params).run s).2 := by
  cases hbind : bind statement params with
  | error e =>
    refine query_connection_of_error ?_ s
    rw [prepare, hbind]
    rfl
  | ok source =>
    dsimp only
    cases hparse : Statement.parse source with
    | error e =>
      refine query_connection_of_error ?_ s
      rw [prepare, hbind]
      change (Statement.parse source).mapError _ = _
      rw [hparse]
      rfl
    | ok r =>
      have hprepare : prepare statement params = .ok r := by
        rw [prepare, hbind]
        change (Statement.parse source).mapError _ = _
        rw [hparse]
        rfl
      dsimp only
      rw [query_connection_of_ok hprepare, execute_connection]
      exact ⟨operationOf?_target _ _, bytes_body r, ⟨_, ofBytes_body r, rfl⟩,
        answers_perform (Request.carries_of_parse hparse)⟩

end Store

end ItemSql
