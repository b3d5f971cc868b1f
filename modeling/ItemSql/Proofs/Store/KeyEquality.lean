import ItemSql.Proofs.Decimal.Double
import ItemSql.Proofs.Statement.WellFormed
import ItemSql.Proofs.Store.Keys
import ItemSql.Proofs.Store.Selection

/-!
# Equal keys and the same key

A store compares keys in two ways. An item is written and removed by its key as it is stored, so two
numbers are one key only if they are the same text. A query compares by value, and numbers as
doubles, so a key that is spelled in another way is found, and so is another number if it has the
nearest double in common. What a query by key finds is therefore what a removal by this key takes
away exactly if no other key of the table is equal to the one that is asked for
(`lookup_removal_iff`). Texts are compared as they are stored, and with them the two ways agree.
-/

namespace ItemSql

/-! ## Values that are equal to themselves -/

/-- What is written in a statement is equal to itself, since no numeral is read as a double that is
no number. -/
theorem AttributeValue.Written.compare?_self {value : AttributeValue} (h : value.Written) :
    value.compare? value = some .eq := by
  cases h with
  | string content => exact compare?_string_eq_iff.mpr rfl
  | number h =>
    obtain ⟨x, hx, hnumber⟩ := h.exists_number
    rw [compare?, hx]
    exact Decimal.compare?_self hnumber

/-! ## One table -/

/-- What is found among the items is what is missing among those that are left: nothing, or one
item. -/
inductive SameItem (items found left : List Item) : Prop
  | none (hfound : found = []) (hleft : left = items)
  | one {item : Item} {front back : List Item} (hfound : found = [item])
      (hitems : items = front ++ item :: back) (hleft : left = front ++ back)

namespace Table

variable {t : Table} {name : String} {value : AttributeValue} {key item : Item}

/-- Whether an attribute of an item is equal to a value. -/
def matchesKey (name : String) (value : AttributeValue) (item : Item) : Bool :=
  (item.get? name).any fun other ↦ other.compare? value = some .eq

/-- No key of the table is equal to the value, apart from the value itself. -/
def Distinguishes (t : Table) (name : String) (value : AttributeValue) : Prop :=
  ∀ item ∈ t.items, ∀ other, item.get? name = some other → other.compare? value = some .eq →
    other = value

theorem keyOf_eq_iff (hschema : t.keySchema = [⟨name, .hash⟩]) (hkey : key.get? name = some value) :
    t.keyOf item = t.keyOf key ↔ item.get? name = some value := by
  rw [keyOf, keyOf, hschema, ← hkey]
  exact List.singleton_inj

theorem matchesKey_iff : matchesKey name value item = true ↔
    ∃ other, item.get? name = some other ∧ other.compare? value = some .eq := by
  rw [matchesKey, Option.any_eq_true]
  simp only [decide_eq_true_iff]

/-- The item that a removal takes away is split off the others. -/
theorem exists_remove_eq {i : Nat} (h : t.position? key = some i) :
    ∃ front item back, t.items = front ++ item :: back ∧ t.keyOf item = t.keyOf key ∧
      (t.remove key).items = front ++ back := by
  obtain ⟨item, hitem, hfind⟩ := exists_getElem?_of_position? h
  obtain ⟨hi, rfl⟩ := List.getElem?_eq_some_iff.mp hitem
  refine ⟨t.items.take i, t.items[i], t.items.drop (i + 1), ?_, ?_, ?_⟩
  · rw [List.getElem_cons_drop, List.take_append_drop]
  · simpa using List.find?_some hfind
  · rw [remove, h]
    exact List.eraseIdx_eq_take_drop_succ _ _

theorem remove_of_position?_eq_none (h : t.position? key = none) : t.remove key = t := by
  rw [remove, h]

/-- Where no other key is equal, an item is found exactly if it has the key. -/
theorem Distinguishes.matchesKey_iff (h : t.Distinguishes name value)
    (hschema : t.keySchema = [⟨name, .hash⟩]) (hkey : key.get? name = some value)
    (hself : value.compare? value = some .eq) (hitem : item ∈ t.items) :
    matchesKey name value item = true ↔ t.keyOf item = t.keyOf key := by
  rw [keyOf_eq_iff hschema hkey, Table.matchesKey_iff]
  constructor
  · rintro ⟨other, hother, hcompare⟩
    rw [hother, h item hitem other hother hcompare]
  · intro hvalue
    exact ⟨value, hvalue, hself⟩

theorem Keyed.sameItem (h : t.Keyed) (hdistinct : t.Distinguishes name value)
    (hschema : t.keySchema = [⟨name, .hash⟩]) (hkey : key.get? name = some value)
    (hself : value.compare? value = some .eq) :
    SameItem t.items (t.items.filter (matchesKey name value)) (t.remove key).items := by
  cases hposition : t.position? key with
  | none =>
    refine .none (List.filter_eq_nil_iff.mpr fun item hitem hmatch ↦ ?_)
      (congrArg Table.items (remove_of_position?_eq_none hposition))
    have hmem : t.keyOf item ∈ t.keys := List.mem_map_of_mem hitem
    rw [(hdistinct.matchesKey_iff hschema hkey hself hitem).mp hmatch] at hmem
    exact notMem_keys_of_position? hposition hmem
  | some i =>
    obtain ⟨front, item, back, hitems, hkeyOf, hleft⟩ := exists_remove_eq hposition
    have hothers : (front ++ back).filter (matchesKey name value) = [] := by
      refine List.filter_eq_nil_iff.mpr fun other hother hmatch ↦ ?_
      have hmem : other ∈ t.items := by
        rw [hitems]
        exact List.perm_middle.mem_iff.mpr (.tail _ hother)
      have heq := (hdistinct.matchesKey_iff hschema hkey hself hmem).mp hmatch
      exact h.keyOf_ne hitems hother (heq.trans hkeyOf.symm)
    have hitem : matchesKey name value item = true := by
      refine (hdistinct.matchesKey_iff hschema hkey hself ?_).mpr hkeyOf
      simp [hitems]
    refine .one ?_ hitems hleft
    rw [List.filter_append, List.append_eq_nil_iff] at hothers
    rw [hitems, List.filter_append, List.filter_cons_of_pos hitem, hothers.1, hothers.2]
    rfl

theorem distinguishes_of_sameItem (hschema : t.keySchema = [⟨name, .hash⟩])
    (hkey : key.get? name = some value) (hself : value.compare? value = some .eq)
    (h : SameItem t.items (t.items.filter (matchesKey name value)) (t.remove key).items) :
    t.Distinguishes name value := by
  intro item hitem other hother hcompare
  have hmem : item ∈ t.items.filter (matchesKey name value) :=
    List.mem_filter.mpr ⟨hitem, matchesKey_iff.mpr ⟨other, hother, hcompare⟩⟩
  cases h with
  | none hfound _ =>
    rw [hfound] at hmem
    cases hmem
  | @one found front back hfound hitems hleft =>
    cases hposition : t.position? key with
    | none =>
      -- Nothing would be missing.
      rw [remove_of_position?_eq_none hposition, hitems] at hleft
      have hlength := congrArg List.length hleft
      simp at hlength
    | some i =>
      -- The item that is missing is found, and so it is the only one that is.
      obtain ⟨front, removed, back, hitems, hkeyOf, -⟩ := exists_remove_eq hposition
      have hremoved := (keyOf_eq_iff hschema hkey).mp hkeyOf
      have hmem' : removed ∈ t.items.filter (matchesKey name value) :=
        List.mem_filter.mpr ⟨by simp [hitems], matchesKey_iff.mpr ⟨value, hremoved, hself⟩⟩
      rw [hfound, List.mem_singleton] at hmem hmem'
      rw [hmem, ← hmem', hremoved] at hother
      exact (Option.some.inj hother).symm

/-- A query and a removal by one key have to do with the same item exactly if the table has no other
key that is equal. -/
theorem Keyed.sameItem_iff (h : t.Keyed) (hschema : t.keySchema = [⟨name, .hash⟩])
    (hkey : key.get? name = some value) (hself : value.compare? value = some .eq) :
    SameItem t.items (t.items.filter (matchesKey name value)) (t.remove key).items ↔
      t.Distinguishes name value :=
  ⟨distinguishes_of_sameItem hschema hkey hself,
    fun hdistinct ↦ h.sameItem hdistinct hschema hkey hself⟩

/-- No other key is equal to a text. -/
theorem distinguishes_string (t : Table) (name content : String) :
    t.Distinguishes name (.string content) :=
  fun _ _ _ _ hcompare ↦ AttributeValue.compare?_string_eq_iff.mp hcompare

/-- Without a range key and a limit, the items that are equal are found in their order. -/
theorem exists_query_eq (hschema : t.keySchema = [⟨name, .hash⟩]) (table : String) :
    ∃ o, t.query ⟨table, [], Expression.conditions [⟨name, .eq, [value]⟩], none, none⟩ = some o ∧
      o.items = t.items.filter (matchesKey name value) := by
  have hmatching : t.matching (Expression.conditions [⟨name, .eq, [value]⟩]) =
      t.items.filter (matchesKey name value) := by
    have hdistinct : (List.map (·.name) [Expression.mk name .eq [value]]).Nodup :=
      List.nodup_singleton name
    rw [matching_conditions hdistinct]
    refine List.filter_congr fun item _ ↦ ?_
    have hholds : (⟨.eq, [value]⟩ : Condition).holdsOf =
        fun other ↦ decide (other.compare? value = some .eq) :=
      funext fun other ↦ Bool.or_false _
    simp [Expression.holdsOf, Expression.condition, Condition.satisfiedBy, hholds, matchesKey]
  have harrange : t.arrange none (t.items.filter (matchesKey name value)) =
      some (t.items.filter (matchesKey name value)) := by
    rw [arrange, sorted?, rangeKey?, hschema]
    rfl
  rw [query, hmatching, harrange]
  exact ⟨_, rfl, List.map_id _⟩

end Table

/-! ## Statements over the store -/

namespace Store

open Statement Statement.Grammar Token

variable {config : Config} {s : Store} {script : Script} {t : Table} {name table : String}
  {select delete : String} {found left : List Item} {value : AttributeValue} {literal : Symbol}

/-- The symbols of a query for all that is known of one key. -/
def lookupSymbols (table name : String) (literal : Symbol) : List Symbol :=
  [⟨.keyword, "select"⟩, ⟨.wildcard, "*"⟩, ⟨.keyword, "from"⟩, ⟨.identifier, table⟩,
    ⟨.keyword, "where"⟩, ⟨.identifier, name⟩, ⟨.operator, "="⟩, literal, endSymbol]

/-- The symbols of a removal by one key. -/
def removalSymbols (table name : String) (literal : Symbol) : List Symbol :=
  [⟨.keyword, "delete"⟩, ⟨.keyword, "from"⟩, ⟨.identifier, table⟩, ⟨.keyword, "where"⟩,
    ⟨.identifier, name⟩, ⟨.operator, "="⟩, literal, endSymbol]

/-- The query returns the items that are found, and the removal leaves those that are left. -/
structure ByKey (config : Config) (s : Store) (select delete table : String)
    (found left : List Item) : Prop where
  query : (((connection config).query select []).run s).1 =
    some (.ok (.of (.of found none) config.numberPolicy))
  removal : (((connection config).query delete []).run s).1 = some (.ok .empty)
  left : ((((connection config).query delete []).run s).2.tables.get? table).map (·.items) =
    some left

/-- The query tells what is found. -/
theorem ByKey.found_eq {found' left' : List Item}
    (h : ByKey config s select delete table found left)
    (h' : ByKey config s select delete table found' left') : found = found' := by
  have hcursor := Except.ok.inj (Option.some.inj (h.query.symm.trans h'.query))
  exact Option.some.inj (congrArg Cursor.items? hcursor)

theorem selects_lookup (hliteral : Literal literal value) :
    Selects Clause (lookupSymbols table name literal)
      ⟨table, [], [⟨name, .eq, [value]⟩], none, none⟩ := by
  have hclause : Clause [⟨.keyword, "where"⟩, ⟨.identifier, name⟩, ⟨.operator, "="⟩, literal]
      [⟨name, .eq, [value]⟩] :=
    .stated ⟨rfl, by decide⟩ (.one (.sign rfl hliteral))
  exact .plain table (.all "*") hclause

theorem sentence_removal (hliteral : Literal literal value) :
    Sentence (removalSymbols table name literal)
      (.deleteItem ⟨table, Expression.key [⟨name, .eq, [value]⟩]⟩) := by
  have hdelete : Delete [⟨.keyword, "from"⟩, ⟨.identifier, table⟩, ⟨.keyword, "where"⟩,
      ⟨.identifier, name⟩, ⟨.operator, "="⟩, literal]
      (.deleteItem ⟨table, Expression.key [⟨name, .eq, [value]⟩]⟩) :=
    .mk ⟨rfl, by decide⟩ ⟨rfl, by decide⟩ (.one (.mk hliteral))
  exact .delete ⟨rfl, by decide⟩ (.mk hdelete .bare)

/-- What the two statements come to: the items that are equal, and what a removal leaves. -/
theorem byKey (ht : s.tables.get? table = some t) (hschema : t.keySchema = [⟨name, .hash⟩])
    (hliteral : Literal literal value)
    (hselect : symbols (scan select) = lookupSymbols table name literal)
    (hdelete : symbols (scan delete) = removalSymbols table name literal) :
    ByKey config s select delete table (t.items.filter (Table.matchesKey name value))
      (t.remove (Expression.key [⟨name, .eq, [value]⟩])).items := by
  have hselects : Selects Clause (symbols (scan select))
      ⟨table, [], [⟨name, .eq, [value]⟩], none, none⟩ :=
    hselect ▸ selects_lookup hliteral
  have hsentence : Sentence (symbols (scan delete))
      (.deleteItem ⟨table, Expression.key [⟨name, .eq, [value]⟩]⟩) :=
    hdelete ▸ sentence_removal hliteral
  have hprepare := prepare_of_parse (bind_of_sentence hsentence) (parse_of_sentence hsentence)
  have hperform : perform s.tables (.deleteItem ⟨table, Expression.key [⟨name, .eq, [value]⟩]⟩) =
      (some (.ok acknowledgement),
        s.tables.insert table (t.remove (Expression.key [⟨name, .eq, [value]⟩]))) := by
    rw [perform, onTable_of_get? ht]
  refine ⟨?_, ?_, ?_⟩
  · obtain ⟨o, ho, hitems⟩ := Table.exists_query_eq hschema table
    have hselection := prepare_of_parse (bind_of_selects hselects) (parse_of_selects hselects)
    rw [query_connection_of_found hselection ht ho, ← hitems]
    rfl
  · rw [query_connection_of_acknowledged hprepare (by simp [Request.operation]) hperform]
  · rw [query_connection_of_acknowledged hprepare (by simp [Request.operation]) hperform]
    exact congrArg (Option.map _) NameMap.get?_insert_self

/-- Behind any statements that update nothing, a query and a removal by the key of a table have to
do with the same item exactly if the table has no other key that is equal. -/
theorem lookup_removal_iff (config : Config) (hscript : ∀ p, .updateItem p ∉ script.requests)
    (ht : (run config .empty script).tables.get? table = some t)
    (hschema : t.keySchema = [⟨name, .hash⟩]) (hliteral : Literal literal value)
    (hselect : symbols (scan select) = lookupSymbols table name literal)
    (hdelete : symbols (scan delete) = removalSymbols table name literal) :
    ∃ found left, ByKey config (run config .empty script) select delete table found left ∧
      (SameItem t.items found left ↔ t.Distinguishes name value) ∧
      (∀ content, value = .string content → SameItem t.items found left) := by
  have hcut : literal.kind ≠ .endOfInput → literal.IsCut := by
    refine (scanned_scan select).isCut literal ?_
    simp [hselect, lookupSymbols]
  have hself : value.compare? value = some .eq := (hliteral.written hcut).compare?_self
  have hkey : (Expression.key [⟨name, .eq, [value]⟩]).get? name = some value :=
    NameMap.get?_insert_self
  have hsame := (keyed_run config hscript table t ht).sameItem_iff hschema hkey hself
  refine ⟨_, _, byKey ht hschema hliteral hselect hdelete, hsame, ?_⟩
  rintro content rfl
  exact hsame.mpr (t.distinguishes_string name content)

/-- Two numbers that differ by one and have the nearest double in common, and a third number. -/
def neighborScript : Script :=
  [("create table t (k number hash)", []),
    ("insert into t (k) values (9007199254740992)", []),
    ("insert into t (k) values (9007199254740993)", []),
    ("insert into t (k) values (1)", [])]

def neighborTable : Table :=
  ⟨[⟨"k", .hash⟩], [.ofList [("k", .number "9007199254740992")],
    .ofList [("k", .number "9007199254740993")], .ofList [("k", .number "1")]]⟩

theorem requests_neighborScript : Script.requests neighborScript =
    [.createTable ⟨"t", [⟨"k", .number⟩], [⟨"k", .hash⟩], {}⟩,
      .putItem ⟨"t", .ofList [("k", .number "9007199254740992")]⟩,
      .putItem ⟨"t", .ofList [("k", .number "9007199254740993")]⟩,
      .putItem ⟨"t", .ofList [("k", .number "1")]⟩] := by
  decide +kernel

theorem updateItem_notMem_neighborScript (p : UpdateItem) :
    .updateItem p ∉ Script.requests neighborScript := by
  rw [requests_neighborScript]
  simp

theorem get?_run_neighborScript :
    (run {} .empty neighborScript).tables.get? "t" = some neighborTable := by
  rw [tables_run, requests_neighborScript]
  decide +kernel

/-- The third number is a key of its own. -/
theorem lookup_removal_neighborScript :
    ∃ found left, ByKey {} (run {} .empty neighborScript) "select * from t where k = 1"
        "delete from t where k = 1" "t" found left ∧
      SameItem neighborTable.items found left := by
  have hdistinct : neighborTable.Distinguishes "k" (.number "1") := by
    have hitems : ∀ item ∈ neighborTable.items, ∀ other ∈ item.get? "k",
        other.compare? (.number "1") = some .eq → other = .number "1" := by
      decide +kernel
    exact hitems
  have hselect : symbols (scan "select * from t where k = 1") =
      lookupSymbols "t" "k" ⟨.number, "1"⟩ := by
    decide +kernel
  have hdelete : symbols (scan "delete from t where k = 1") =
      removalSymbols "t" "k" ⟨.number, "1"⟩ := by
    decide +kernel
  obtain ⟨found, left, hbyKey, hsame, -⟩ := lookup_removal_iff {}
    updateItem_notMem_neighborScript get?_run_neighborScript rfl (.number "1") hselect hdelete
  exact ⟨found, left, hbyKey, hsame.mpr hdistinct⟩

/-- A query by one of the other two finds both of them. -/
theorem lookup_removal_not_same :
    ¬ ∀ (config : Config) (script : Script) (t : Table) (table name : String) (literal : Symbol)
        (value : AttributeValue) (select delete : String),
      (∀ p, .updateItem p ∉ script.requests) →
      (run config .empty script).tables.get? table = some t → t.keySchema = [⟨name, .hash⟩] →
      Literal literal value → symbols (scan select) = lookupSymbols table name literal →
      symbols (scan delete) = removalSymbols table name literal →
      ∃ found left, ByKey config (run config .empty script) select delete table found left ∧
        SameItem t.items found left := by
  intro h
  have hselect : symbols (scan "select * from t where k = 9007199254740993") =
      lookupSymbols "t" "k" ⟨.number, "9007199254740993"⟩ := by
    decide +kernel
  have hdelete : symbols (scan "delete from t where k = 9007199254740993") =
      removalSymbols "t" "k" ⟨.number, "9007199254740993"⟩ := by
    decide +kernel
  obtain ⟨found, left, hbyKey, hsame⟩ := h {} neighborScript neighborTable "t" "k" _ _ _ _
    updateItem_notMem_neighborScript get?_run_neighborScript rfl (.number "9007199254740993")
    hselect hdelete
  have hboth : neighborTable.items.filter
      (Table.matchesKey "k" (.number "9007199254740993")) =
        [.ofList [("k", .number "9007199254740992")],
          .ofList [("k", .number "9007199254740993")]] := by
    decide +kernel
  rw [hbyKey.found_eq (byKey get?_run_neighborScript rfl (.number "9007199254740993") hselect
    hdelete), hboth] at hsame
  cases hsame with
  | none hfound => cases hfound
  | one hfound => cases hfound

end Store

end ItemSql
