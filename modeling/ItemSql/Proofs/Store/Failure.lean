import ItemSql.Proofs.NameMap
import ItemSql.Store

/-!
# What a failing request leaves behind

A request that fails should change nothing. All operations look before they change something, but
for one: an update gives the attributes their values one by one, and stops where a change carries
none. What it did before that stays, and if there was no item of the key, the key stays as one.

`Table.StopsHalfway` says when an update stops with something changed, in terms of the table and the
list of changes. It is exactly when a failing request changes the tables.
-/

namespace ItemSql

namespace Table

variable {t t' : Table} {key item item' : Item} {name : String} {update : AttributeUpdate}
  {updates before : List (String × AttributeUpdate)}

/-! ## Changes one by one -/

/-- Whether every one of the changes carries a value. -/
def AllCarry (updates : List (String × AttributeUpdate)) : Prop :=
  ∀ u ∈ updates, u.2.value? ≠ none

theorem applyUpdates_cons {value : AttributeValue} (h : update.value? = some value) :
    applyUpdates ((name, update) :: updates) item =
      applyUpdates updates (item.insert name value) := by
  rw [applyUpdates, h]

theorem applyUpdates_cons_none (h : update.value? = none) :
    applyUpdates ((name, update) :: updates) item = (item, some (name, update)) := by
  rw [applyUpdates, h]

theorem exists_applyUpdates_eq (h : AllCarry updates) (item : Item) :
    ∃ item', applyUpdates updates item = (item', none) := by
  induction updates generalizing item with
  | nil => exact ⟨item, rfl⟩
  | cons u updates ih =>
    obtain ⟨name, update⟩ := u
    obtain ⟨value, hvalue⟩ := Option.ne_none_iff_exists'.mp (h _ List.mem_cons_self)
    obtain ⟨item', h'⟩ := ih (fun u hu ↦ h u (List.mem_cons_of_mem _ hu)) (item.insert name value)
    exact ⟨item', (applyUpdates_cons hvalue).trans h'⟩

theorem allCarry_of_applyUpdates (h : applyUpdates updates item = (item', none)) :
    AllCarry updates := by
  induction updates generalizing item with
  | nil => simp [AllCarry]
  | cons u updates ih =>
    obtain ⟨name, update⟩ := u
    cases hvalue : update.value? with
    | none =>
      rw [applyUpdates_cons_none hvalue] at h
      cases h
    | some value =>
      rw [applyUpdates_cons hvalue] at h
      intro u hu
      rcases List.mem_cons.mp hu with rfl | hu
      · exact hvalue ▸ Option.some_ne_none value
      · exact ih h u hu

/-- The changes are made up to the first one that carries no value. -/
theorem applyUpdates_eq_some_iff :
    applyUpdates updates item = (item', some (name, update)) ↔
      ∃ before after, updates = before ++ (name, update) :: after ∧ update.value? = none ∧
        applyUpdates before item = (item', none) := by
  induction updates generalizing item with
  | nil =>
    constructor
    · intro h
      cases h
    · rintro ⟨before, after, h, -⟩
      cases before <;> cases h
  | cons u updates ih =>
    obtain ⟨n, u⟩ := u
    cases hvalue : u.value? with
    | none =>
      -- It stops at the first change, and the list can be split nowhere else.
      rw [applyUpdates_cons_none hvalue]
      constructor
      · intro h
        cases h
        exact ⟨[], updates, rfl, hvalue, rfl⟩
      · rintro ⟨before, after, h, -, hbefore⟩
        cases before with
        | nil =>
          cases h
          cases hbefore
          rfl
        | cons v before =>
          cases h
          rw [applyUpdates_cons_none hvalue] at hbefore
          cases hbefore
    | some value =>
      rw [applyUpdates_cons hvalue, ih]
      constructor
      · rintro ⟨before, after, rfl, hnone, hbefore⟩
        exact ⟨(n, u) :: before, after, rfl, hnone, (applyUpdates_cons hvalue).trans hbefore⟩
      · rintro ⟨before, after, h, hnone, hbefore⟩
        cases before with
        | nil =>
          cases h
          cases hvalue.symm.trans hnone
        | cons v before =>
          cases h
          rw [applyUpdates_cons hvalue] at hbefore
          exact ⟨before, after, rfl, hnone, hbefore⟩

/-! ## What the changes change -/

theorem get?_applyUpdates_of_notMem (h : applyUpdates updates item = (item', none))
    (hname : name ∉ Entries.names updates) : item'.get? name = item.get? name := by
  induction updates generalizing item with
  | nil =>
    cases h
    rfl
  | cons u updates ih =>
    obtain ⟨n, u⟩ := u
    obtain ⟨hne, hname⟩ := not_or.mp (mt List.mem_cons.mpr hname)
    obtain ⟨value, hvalue⟩ := Option.ne_none_iff_exists'.mp
      (allCarry_of_applyUpdates h (n, u) List.mem_cons_self)
    rw [applyUpdates_cons hvalue] at h
    rw [ih h hname, NameMap.get?_insert_of_ne hne]

/-- Each attribute has the value it was given, since no name is given two. -/
theorem get?_applyUpdates (h : applyUpdates updates item = (item', none))
    (hnames : (Entries.names updates).Nodup) :
    ∀ u ∈ updates, item'.get? u.1 = u.2.value? := by
  induction updates generalizing item with
  | nil => simp
  | cons u updates ih =>
    obtain ⟨n, u⟩ := u
    obtain ⟨hname, hnames⟩ := List.nodup_cons.mp hnames
    obtain ⟨value, hvalue⟩ := Option.ne_none_iff_exists'.mp
      (allCarry_of_applyUpdates h (n, u) List.mem_cons_self)
    rw [applyUpdates_cons hvalue] at h
    intro v hv
    rcases List.mem_cons.mp hv with rfl | hv
    · rw [get?_applyUpdates_of_notMem h hname, NameMap.get?_insert_self, hvalue]
    · exact ih h hnames v hv

theorem applyUpdates_eq_self (hcarry : AllCarry updates)
    (h : ∀ u ∈ updates, item.get? u.1 = u.2.value?) : applyUpdates updates item = (item, none) := by
  induction updates with
  | nil => rfl
  | cons u updates ih =>
    obtain ⟨n, u⟩ := u
    obtain ⟨value, hvalue⟩ := Option.ne_none_iff_exists'.mp (hcarry (n, u) List.mem_cons_self)
    have hself : item.insert n value = item :=
      NameMap.insert_eq_self_iff.mpr ((h (n, u) List.mem_cons_self).trans hvalue)
    rw [applyUpdates_cons hvalue, hself]
    exact ih (fun v hv ↦ hcarry v (List.mem_cons_of_mem _ hv))
      fun v hv ↦ h v (List.mem_cons_of_mem _ hv)

/-- The item stays as it is just if it had all the values before. -/
theorem applyUpdates_eq_self_iff (h : applyUpdates updates item = (item', none))
    (hnames : (Entries.names updates).Nodup) :
    item' = item ↔ ∀ u ∈ updates, item.get? u.1 = u.2.value? := by
  constructor
  · rintro rfl
    exact get?_applyUpdates h hnames
  · intro hall
    have hself := applyUpdates_eq_self (allCarry_of_applyUpdates h) hall
    exact (Prod.mk.inj (h.symm.trans hself)).1

/-! ## Updates that stop -/

/-- The update stops at a change that carries no value, but not without having changed something:
there was no item of the key, or the first one had not all the values that it was given before. -/
def StopsHalfway (t : Table) (key : Item) (updates : List (String × AttributeUpdate)) : Prop :=
  ∃ before name update after, updates = before ++ (name, update) :: after ∧ AllCarry before ∧
    update.value? = none ∧
    ∀ item, t.items.find? (fun item ↦ t.keyOf item = t.keyOf key) = some item →
      ∃ u ∈ before, item.get? u.1 ≠ u.2.value?

theorem update_of_position?_eq_none {updates : NameMap AttributeUpdate}
    (h : t.position? key = none) : t.update key updates =
      ({ t with items := t.items ++ [(applyUpdates updates.toList key).1] },
        (applyUpdates updates.toList key).2) := by
  rw [update, h]
  simp

theorem update_of_position?_eq_some {updates : NameMap AttributeUpdate} {i : Nat}
    (h : t.position? key = some i) (hitem : t.items[i]? = some item) : t.update key updates =
      ({ t with items := t.items.set i (applyUpdates updates.toList item).1 },
        (applyUpdates updates.toList item).2) := by
  rw [update, h]
  simp only [hitem]

/-- The position of a key is that of the first item that has it. -/
theorem exists_getElem?_of_position? {i : Nat} (h : t.position? key = some i) :
    ∃ item, t.items[i]? = some item ∧
      t.items.find? (fun item ↦ t.keyOf item = t.keyOf key) = some item := by
  obtain ⟨hi, -⟩ := List.findIdx?_eq_some_iff_getElem.mp h
  refine ⟨t.items[i], List.getElem?_eq_getElem hi, ?_⟩
  rw [position?] at h
  rw [List.find?_eq_bind_findIdx?_getElem?, h]
  exact List.getElem?_eq_getElem hi

theorem set_eq_self_iff {i : Nat} (hitem : t.items[i]? = some item) :
    { t with items := t.items.set i item' } = t ↔ item' = item := by
  obtain ⟨hi, rfl⟩ := List.getElem?_eq_some_iff.mp hitem
  constructor
  · intro h
    have hitems : t.items.set i item' = t.items := congrArg Table.items h
    have hget : (t.items.set i item')[i]? = some t.items[i] := by
      rw [hitems, List.getElem?_eq_getElem hi]
    rw [List.getElem?_set_self hi] at hget
    exact Option.some.inj hget
  · rintro rfl
    rw [List.set_getElem_self]

theorem nodup_names_of_append {updates : NameMap AttributeUpdate}
    {after : List (String × AttributeUpdate)} (h : updates.toList = before ++ after) :
    (Entries.names before).Nodup := by
  have hnames := updates.nodup_names
  change updates.entries = before ++ after at h
  rw [h, Entries.names, List.map_append] at hnames
  exact (List.nodup_append.mp hnames).1

theorem update_failed_eq_self_iff {updates : NameMap AttributeUpdate}
    (h : t.update key updates = (t', some (name, update))) :
    t' = t ↔ ¬ t.StopsHalfway key updates.toList := by
  cases hposition : t.position? key with
  | none =>
    rw [update_of_position?_eq_none hposition] at h
    obtain ⟨rfl, hfailed⟩ := Prod.mk.inj h
    obtain ⟨before, after, hsplit, hnone, hbefore⟩ :=
      applyUpdates_eq_some_iff.mp (Prod.ext rfl hfailed)
    have hfind : t.items.find? (fun item ↦ t.keyOf item = t.keyOf key) = none := by
      rw [List.find?_eq_none]
      rw [position?, List.findIdx?_eq_none_iff] at hposition
      simpa using hposition
    -- The key became an item, so the table has grown whatever the changes did.
    refine iff_of_false (fun heq ↦ ?_) (not_not_intro ?_)
    · simpa using congrArg (fun t : Table ↦ t.items.length) heq
    · refine ⟨before, name, update, after, hsplit, allCarry_of_applyUpdates hbefore, hnone, ?_⟩
      rw [hfind]
      simp
  | some i =>
    obtain ⟨item, hitem, hfind⟩ := exists_getElem?_of_position? hposition
    rw [update_of_position?_eq_some hposition hitem] at h
    obtain ⟨rfl, hfailed⟩ := Prod.mk.inj h
    obtain ⟨before, after, hsplit, hnone, hbefore⟩ :=
      applyUpdates_eq_some_iff.mp (Prod.ext rfl hfailed)
    rw [set_eq_self_iff hitem, applyUpdates_eq_self_iff hbefore (nodup_names_of_append hsplit)]
    constructor
    · rintro hall ⟨before', name', update', after', hsplit', hcarry', hnone', hchanged⟩
      -- Another place to stop would be another answer of the same run.
      obtain ⟨item', hbefore'⟩ := exists_applyUpdates_eq hcarry' item
      have hsame := applyUpdates_eq_some_iff.mpr ⟨before', after', hsplit', hnone', hbefore'⟩
      have hitem' : item' = item := by
        rw [hsame] at hbefore
        exact (applyUpdates_eq_self_iff hbefore (nodup_names_of_append hsplit)).mpr hall
      obtain ⟨u, hu, hne⟩ := hchanged item hfind
      exact hne ((applyUpdates_eq_self_iff hbefore' (nodup_names_of_append hsplit')).mp hitem' u hu)
    · intro hnot u hu
      refine Classical.byContradiction fun hne ↦ hnot ⟨before, name, update, after, hsplit,
        allCarry_of_applyUpdates hbefore, hnone, ?_⟩
      intro item' hitem'
      obtain rfl := Option.some.inj (hfind.symm.trans hitem')
      exact ⟨u, hu, hne⟩

end Table

namespace Store

variable {tables tables' : NameMap Table} {e : ServiceError}

/-! ## Requests that fail -/

theorem onTable_error {table : String} {change : Table → Answer × Table}
    (h : onTable tables table change = (some (.error e), tables')) :
    (tables.get? table = none ∧ tables' = tables) ∨
      ∃ t t', tables.get? table = some t ∧ change t = (some (.error e), t') ∧
        tables' = tables.insert table t' := by
  rw [onTable] at h
  cases htable : tables.get? table with
  | none =>
    rw [htable] at h
    exact .inl ⟨rfl, (Prod.mk.inj h).2.symm⟩
  | some t =>
    rw [htable] at h
    obtain ⟨hanswer, rfl⟩ := Prod.mk.inj h
    exact .inr ⟨t, _, rfl, Prod.ext hanswer rfl, rfl⟩

/-- An operation that fails on no table fails before it changes anything. -/
theorem onTable_error_eq_self {table : String} {change : Table → Answer × Table}
    (hnever : ∀ t e, (change t).1 ≠ some (.error e))
    (h : onTable tables table change = (some (.error e), tables')) : tables' = tables := by
  rcases onTable_error h with ⟨-, htables⟩ | ⟨t, t', -, hchange, -⟩
  · exact htables
  · exact absurd (congrArg Prod.fst hchange) (hnever t e)

/-- Every operation but an update fails before it changes anything. -/
theorem perform_error_eq_self {request : Request} (hrequest : ∀ p, request ≠ .updateItem p)
    (h : perform tables request = (some (.error e), tables')) : tables' = tables := by
  cases request with
  | createTable p =>
    rw [perform] at h
    by_cases hcontains : tables.contains p.tableName = true
    · rw [if_pos hcontains] at h
      exact (Prod.mk.inj h).2.symm
    · rw [if_neg hcontains] at h
      cases (Prod.mk.inj h).1
  | deleteTable p =>
    rw [perform] at h
    by_cases hcontains : tables.contains p.tableName = true
    · rw [if_pos hcontains] at h
      cases (Prod.mk.inj h).1
    · rw [if_neg hcontains] at h
      exact (Prod.mk.inj h).2.symm
  | putItem p =>
    rw [perform] at h
    exact onTable_error_eq_self (by nofun) h
  | updateItem p => exact absurd rfl (hrequest p)
  | deleteItem p =>
    rw [perform] at h
    exact onTable_error_eq_self (by nofun) h
  | query p =>
    rw [perform] at h
    refine onTable_error_eq_self (fun t e hanswer ↦ ?_) h
    obtain ⟨output, -, houtput⟩ := Option.map_eq_some_iff.mp hanswer
    cases houtput

theorem perform_updateItem_error {p : UpdateItem}
    (h : perform tables (.updateItem p) = (some (.error e), tables')) :
    tables' = tables ↔ ¬ ∃ t, tables.get? p.tableName = some t ∧
      t.StopsHalfway p.key p.updates.toList := by
  rcases onTable_error h with ⟨hnone, htables⟩ | ⟨t, t', htable, hchange, rfl⟩
  · refine iff_of_true htables ?_
    rintro ⟨t, ht, -⟩
    cases hnone.symm.trans ht
  · have hupdate : ∃ name update, t.update p.key p.updates = (t', some (name, update)) := by
      cases hresult : t.update p.key p.updates with
      | mk t'' failed? =>
        rw [hresult] at hchange
        cases failed? with
        | none => cases hchange
        | some u =>
          obtain ⟨-, rfl⟩ := Prod.mk.inj hchange
          exact ⟨u.1, u.2, rfl⟩
    obtain ⟨name, update, hupdate⟩ := hupdate
    rw [NameMap.insert_eq_self_iff, htable, Option.some_inj, eq_comm,
      Table.update_failed_eq_self_iff hupdate]
    refine not_congr ⟨fun hhalfway ↦ ⟨t, rfl, hhalfway⟩, ?_⟩
    rintro ⟨t, ht, hhalfway⟩
    obtain rfl := Option.some.inj ht
    exact hhalfway

/-! ## What is left behind -/

/-- A request that fails with half of its work done: an update that stops halfway. -/
structure HalfDone (tables : NameMap Table) (target : String) (body : Text.Bytes) (p : UpdateItem)
    (t : Table) : Prop where
  operation : operationOf? target = some .updateItem
  payload : Json.Decode.bytes (Request.decode .updateItem) body = .ok (.updateItem p)
  table : tables.get? p.tableName = some t
  halfway : t.StopsHalfway p.key p.updates.toList

theorem exists_decode_eq_of_bytes {α : Type} {decode : Json.Decoder α} {body : Text.Bytes} {a : α}
    (h : Json.Decode.bytes decode body = .ok a) : ∃ node, decode node = .ok a := by
  rw [Json.Decode.bytes, Json.Decode.glyphs] at h
  cases hglyphs : Json.Node.ofGlyphs (Text.Glyph.ofBytes body) with
  | mk node clean =>
    rw [hglyphs] at h
    refine ⟨node, ?_⟩
    cases hnode : decode node with
    | error e =>
      change (decode node >>= _) = _ at h
      rw [hnode] at h
      cases h
    | ok b =>
      change (decode node >>= _) = _ at h
      rw [hnode] at h
      cases clean with
      | false => cases h
      | true => exact h

/-- What is decoded is a request for the operation. -/
theorem operation_of_decode {op : Operation} {node : Json.Node} {request : Request}
    (h : Request.decode op node = .ok request) : request.operation = op := by
  have hmap {α : Type} {decoded : Json.Decoded α} {f : α → Request} (hf : ∀ a, (f a).operation = op)
      (h : decoded.map f = .ok request) : request.operation = op := by
    cases decoded with
    | error e => cases h
    | ok a =>
      obtain rfl := Except.ok.inj h
      exact hf a
  cases op <;> exact hmap (fun _ ↦ rfl) h

theorem answer_error {target : String} {body : Text.Bytes}
    (h : answer tables target body = (some (.error e), tables')) :
    tables' = tables ↔ ¬ ∃ p t, HalfDone tables target body p t := by
  rw [answer] at h
  cases hop : operationOf? target with
  | none =>
    rw [hop] at h
    refine iff_of_true (Prod.mk.inj h).2.symm ?_
    rintro ⟨p, t, hhalf⟩
    cases hop.symm.trans hhalf.operation
  | some op =>
    rw [hop] at h
    dsimp only at h
    cases hrequest : Json.Decode.bytes (Request.decode op) body with
    | error failure =>
      rw [hrequest] at h
      refine iff_of_true (Prod.mk.inj h).2.symm ?_
      rintro ⟨p, t, hhalf⟩
      obtain rfl := Option.some.inj (hop.symm.trans hhalf.operation)
      cases hrequest.symm.trans hhalf.payload
    | ok request =>
      rw [hrequest] at h
      dsimp only at h
      -- The request is one for the operation of the target, so only an update can be half done.
      obtain ⟨node, hnode⟩ := exists_decode_eq_of_bytes hrequest
      have hoperation := operation_of_decode hnode
      by_cases hupdate : ∃ p, request = .updateItem p
      · obtain ⟨p, rfl⟩ := hupdate
        obtain rfl : Operation.updateItem = op := hoperation
        rw [perform_updateItem_error h]
        refine not_congr ⟨fun ⟨t, ht, hhalfway⟩ ↦ ⟨p, t, hop, hrequest, ht, hhalfway⟩, ?_⟩
        rintro ⟨p', t, hhalf⟩
        have hrequests := Except.ok.inj (hrequest.symm.trans hhalf.payload)
        obtain rfl := Request.updateItem.inj hrequests
        exact ⟨t, hhalf.table, hhalf.halfway⟩
      · refine iff_of_true (perform_error_eq_self (fun p hp ↦ hupdate ⟨p, hp⟩) h) ?_
        rintro ⟨p, t, hhalf⟩
        obtain rfl := Option.some.inj (hop.symm.trans hhalf.operation)
        exact hupdate ⟨p, Except.ok.inj (hrequest.symm.trans hhalf.payload)⟩

/-- A request that fails leaves the tables as they were, but for an update that stops halfway. -/
theorem send_error_tables_eq_iff {s s' : Store} {target : String} {body : Text.Bytes}
    {e : TransportError} (h : s.send target body = (some (.error e), s')) :
    s'.tables = s.tables ↔
      ¬ ∃ json p t, Json.ofBytes body = .ok json ∧ HalfDone s.tables target body p t := by
  rw [send] at h
  cases hjson : Json.ofBytes body with
  | error fault =>
    rw [hjson] at h
    obtain ⟨-, rfl⟩ := Prod.mk.inj h
    refine iff_of_true rfl ?_
    rintro ⟨json, p, t, hbody, -⟩
    cases hbody
  | ok json =>
    rw [hjson] at h
    cases hanswer : answer s.tables target body with
    | mk result tables =>
      rw [hanswer] at h
      obtain ⟨hresult, rfl⟩ := Prod.mk.inj h
      obtain ⟨answered, rfl, hresponse⟩ := Option.map_eq_some_iff.mp hresult
      cases answered with
      | ok text => cases hresponse
      | error failure =>
        rw [answer_error hanswer]
        refine not_congr ⟨fun ⟨p, t, hhalf⟩ ↦ ⟨json, p, t, rfl, hhalf⟩, ?_⟩
        rintro ⟨-, p, t, -, hhalf⟩
        exact ⟨p, t, hhalf⟩

/-! ## An update that leaves its key behind -/

/-- A store of one table, which is empty. -/
def oneTable : Store :=
  ⟨.ofList [("t", ⟨[⟨"k", .hash⟩], []⟩)], []⟩

/-- An update whose only change carries no value. -/
def valueless : Text.Bytes :=
  let update : UpdateItem := ⟨"t", .ofList [("k", .string "x")], .ofList [("a", ⟨none, some .put⟩)]⟩
  Text.utf8 (Request.updateItem update).body

private theorem exists_send_valueless :
    ∃ e s', oneTable.send "DynamoDB_20120810.UpdateItem" valueless = (some (.error e), s') ∧
      s'.tables ≠ oneTable.tables := by
  have hfails : (oneTable.send "DynamoDB_20120810.UpdateItem" valueless).1.map Except.isOk =
      some false := by
    decide +kernel
  have htables : (oneTable.send "DynamoDB_20120810.UpdateItem" valueless).2.tables ≠
      oneTable.tables := by
    decide +kernel
  cases hsend : oneTable.send "DynamoDB_20120810.UpdateItem" valueless with
  | mk response s' =>
    rw [hsend] at hfails htables
    obtain ⟨answered, rfl, hfails⟩ := Option.map_eq_some_iff.mp hfails
    cases answered with
    | ok answer => cases hfails
    | error e => exact ⟨e, s', rfl, htables⟩

/-- Not every request that fails leaves the tables as they were. -/
theorem send_error_changes_tables :
    ∃ e s', oneTable.send "DynamoDB_20120810.UpdateItem" valueless = (some (.error e), s') ∧
      s'.tables ≠ oneTable.tables :=
  exists_send_valueless

theorem halfDone_valueless :
    (∃ e s', oneTable.send "DynamoDB_20120810.UpdateItem" valueless = (some (.error e), s')) ∧
      ∃ json p t, Json.ofBytes valueless = .ok json ∧
        HalfDone oneTable.tables "DynamoDB_20120810.UpdateItem" valueless p t := by
  obtain ⟨e, s', h, hne⟩ := exists_send_valueless
  refine ⟨⟨e, s', h⟩, ?_⟩
  exact Classical.not_not.mp (mt (send_error_tables_eq_iff h).mpr hne)

end Store

end ItemSql
