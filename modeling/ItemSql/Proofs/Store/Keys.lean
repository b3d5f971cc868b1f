import ItemSql.Proofs.Store.Exchange
import Mathlib.Data.List.Induction
import Mathlib.Data.List.Nodup

/-!
# One item for each key

A table should hold one item for each key. An insertion puts its item in the place of the one that
has its key, a deletion only takes an item away, and both keep the keys apart. An update does not:
it finds the item first and looks at nothing but its place from then on, so it may give the item the
key of another one. `Table.Collides` says when it does, and no statement mixes up keys but by such
an update.
-/

namespace ItemSql

namespace Table

variable {t : Table} {key item : Item} {updates : NameMap AttributeUpdate} {i : Nat}

/-! ## Keys of a table -/

/-- The keys of the items, in order. -/
def keys (t : Table) : List (List (Option AttributeValue)) :=
  t.items.map t.keyOf

/-- No two items have one key. -/
def Keyed (t : Table) : Prop :=
  t.keys.Nodup

theorem notMem_keys_of_position? (h : t.position? key = none) : t.keyOf key ∉ t.keys := by
  intro hmem
  obtain ⟨item, hitem, hkey⟩ := List.mem_map.mp hmem
  rw [position?, List.findIdx?_eq_none_iff] at h
  simpa [hkey] using h item hitem

theorem getElem?_keys_of_position? (h : t.position? key = some i) :
    t.keys[i]? = some (t.keyOf key) := by
  obtain ⟨item, hitem, hfind⟩ := exists_getElem?_of_position? h
  have hkey : t.keyOf item = t.keyOf key := by simpa using List.find?_some hfind
  rw [keys, List.getElem?_map, hitem, ← hkey]
  rfl

/-- Where keys are apart, no item but the one of a key has this key. -/
theorem Keyed.keyOf_ne {front back : List Item} (h : t.Keyed)
    (hitems : t.items = front ++ item :: back) {other : Item} (hother : other ∈ front ++ back) :
    t.keyOf other ≠ t.keyOf item := by
  rw [Keyed, keys, hitems, List.map_append, List.map_cons, List.nodup_middle, ← List.map_append,
    List.nodup_cons] at h
  intro heq
  exact h.1 (List.mem_map.mpr ⟨other, hother, heq⟩)

theorem nodup_concat_iff {α : Type} {as : List α} {a : α} (h : as.Nodup) :
    (as ++ [a]).Nodup ↔ a ∉ as := by
  rw [← List.concat_eq_append, List.nodup_concat]
  exact and_iff_left h

theorem nodup_set_iff {α : Type} {as : List α} {a b : α} (h : as.Nodup) (hb : as[i]? = some b) :
    (as.set i a).Nodup ↔ ¬ (a ≠ b ∧ a ∈ as) := by
  obtain ⟨hi, rfl⟩ := List.getElem?_eq_some_iff.mp hb
  constructor
  · rintro hset ⟨hne, hmem⟩
    obtain ⟨j, hj, rfl⟩ := List.getElem_of_mem hmem
    have hji : i ≠ j := by
      rintro rfl
      exact hne rfl
    -- The element stands at its old place and at the new one.
    refine hji ((List.getElem?_inj (by simpa using hi) hset).mp ?_)
    rw [List.getElem?_set_self hi, List.getElem?_set_ne hji, List.getElem?_eq_getElem hj]
  · intro hfree
    by_cases heq : a = as[i]
    · rw [heq, List.set_getElem_self]
      exact h
    · exact h.set fun hmem ↦ hfree ⟨heq, hmem⟩

/-! ## What each operation does to the keys -/

theorem keys_append (item : Item) :
    keys { t with items := t.items ++ [item] } = t.keys ++ [t.keyOf item] := by
  rw [keys, List.map_append]
  rfl

theorem keys_set (i : Nat) (item : Item) :
    keys { t with items := t.items.set i item } = t.keys.set i (t.keyOf item) := by
  rw [keys, List.map_set]
  rfl

theorem Keyed.put (h : t.Keyed) (item : Item) : (t.put item).Keyed := by
  cases hposition : t.position? item with
  | none =>
    rw [Table.put, hposition, Keyed, keys_append, nodup_concat_iff h]
    exact notMem_keys_of_position? hposition
  | some i =>
    obtain ⟨hi, hkey⟩ := List.getElem?_eq_some_iff.mp (getElem?_keys_of_position? hposition)
    rw [Table.put, hposition, Keyed, keys_set, ← hkey, List.set_getElem_self]
    exact h

theorem Keyed.remove (h : t.Keyed) (key : Item) : (t.remove key).Keyed := by
  cases hposition : t.position? key with
  | none =>
    rw [Table.remove, hposition]
    exact h
  | some i =>
    rw [Table.remove, hposition]
    exact h.sublist ((List.eraseIdx_sublist _ _).map _)

/-- The item of a key with the changes made: the first item that has the key, or the key itself. -/
def updated (t : Table) (key : Item) (updates : NameMap AttributeUpdate) : Item :=
  (applyUpdates updates.toList
    ((t.items.find? fun item ↦ t.keyOf item = t.keyOf key).getD key)).1

/-- The update gives the item of its key another key, and an item has that one already. -/
def Collides (t : Table) (key : Item) (updates : NameMap AttributeUpdate) : Prop :=
  t.keyOf (t.updated key updates) ≠ t.keyOf key ∧ t.keyOf (t.updated key updates) ∈ t.keys

theorem Keyed.update_iff (h : t.Keyed) (key : Item) (updates : NameMap AttributeUpdate) :
    (t.update key updates).1.Keyed ↔ ¬ t.Collides key updates := by
  cases hposition : t.position? key with
  | none =>
    have hfind : t.items.find? (fun item ↦ t.keyOf item = t.keyOf key) = none := by
      rw [List.find?_eq_bind_findIdx?_getElem?, ← position?, hposition]
      rfl
    have hnew := notMem_keys_of_position? hposition
    rw [update_of_position?_eq_none hposition, Keyed, keys_append, nodup_concat_iff h, Collides,
      updated, hfind, Option.getD_none]
    refine not_congr ⟨fun hmem ↦ ⟨?_, hmem⟩, And.right⟩
    intro hkey
    exact hnew (hkey ▸ hmem)
  | some i =>
    obtain ⟨item, hitem, hfind⟩ := exists_getElem?_of_position? hposition
    rw [update_of_position?_eq_some hposition hitem, Keyed, keys_set,
      nodup_set_iff h (getElem?_keys_of_position? hposition), Collides, updated, hfind,
      Option.getD_some]

/-- Changes that name no key attribute leave an item its key. -/
theorem keyOf_applyUpdates (hcarry : AllCarry updates.toList)
    (hnames : ∀ element ∈ t.keySchema, element.attributeName ∉ updates.names) (item : Item) :
    t.keyOf (applyUpdates updates.toList item).1 = t.keyOf item := by
  obtain ⟨item', hitem'⟩ := exists_applyUpdates_eq hcarry item
  rw [hitem']
  exact List.map_congr_left fun element helement ↦
    get?_applyUpdates_of_notMem hitem' (hnames element helement)

/-- An update that names no key attribute leaves every item its key. -/
theorem not_collides_of_notMem (hcarry : AllCarry updates.toList)
    (hnames : ∀ element ∈ t.keySchema, element.attributeName ∉ updates.names) :
    ¬ t.Collides key updates := by
  rintro ⟨hne, -⟩
  refine hne ?_
  rw [updated, keyOf_applyUpdates hcarry hnames]
  cases hfind : t.items.find? fun item ↦ t.keyOf item = t.keyOf key with
  | none => rfl
  | some item => simpa using List.find?_some hfind

end Table

namespace Store

variable {config : Config} {tables : NameMap Table} {r : Request}

/-! ## Requests -/

section Every

variable {P : Table → Prop} {table : String} {t : Table}

/-- All tables have a property. -/
def Every (P : Table → Prop) (tables : NameMap Table) : Prop :=
  ∀ name t, tables.get? name = some t → P t

theorem every_empty (P : Table → Prop) : Every P ∅ := by
  rintro name t ⟨⟩

theorem Every.insert_iff (h : Every P tables) : Every P (tables.insert table t) ↔ P t := by
  constructor
  · exact fun hinsert ↦ hinsert table t NameMap.get?_insert_self
  · intro ht name t' hget
    by_cases hname : name = table
    · subst hname
      rw [NameMap.get?_insert_self] at hget
      exact Option.some.inj hget ▸ ht
    · rw [NameMap.get?_insert_of_ne hname] at hget
      exact h name t' hget

theorem Every.onTable (h : Every P tables) {change : Table → Answer × Table}
    (hchange : ∀ t, P t → P (change t).2) : Every P (onTable tables table change).2 := by
  cases htable : tables.get? table with
  | none =>
    rw [onTable_of_get?_eq_none htable]
    exact h
  | some t =>
    rw [onTable_of_get? htable]
    exact h.insert_iff.mpr (hchange t (h table t htable))

/-- The request keeps a property of tables. New tables have it. -/
structure Keeps (P : Table → Prop) (r : Request) : Prop where
  createTable : ∀ schema, P ⟨schema, []⟩
  putItem : ∀ p, r = .putItem p → ∀ t, P t → P (t.put p.item)
  updateItem : ∀ p, r = .updateItem p → ∀ t, P t → P (t.update p.key p.updates).1
  deleteItem : ∀ p, r = .deleteItem p → ∀ t, P t → P (t.remove p.key)

theorem snd_perform_updateItem (tables : NameMap Table) (p : UpdateItem) :
    (perform tables (.updateItem p)).2 =
      (Store.onTable tables p.tableName fun t ↦
        (some (.ok acknowledgement), (t.update p.key p.updates).1)).2 := by
  rw [perform]
  cases htable : tables.get? p.tableName with
  | none => rw [onTable_of_get?_eq_none htable, onTable_of_get?_eq_none htable]
  | some t =>
    rw [onTable_of_get? htable, onTable_of_get? htable]
    cases t.update p.key p.updates with
    | mk t' failed? => cases failed? <;> rfl

theorem Every.perform (h : Every P tables) (hr : Keeps P r) : Every P (perform tables r).2 := by
  cases r with
  | createTable p =>
    rw [Store.perform]
    split
    · exact h
    · exact h.insert_iff.mpr (hr.createTable _)
  | deleteTable p =>
    rw [Store.perform]
    split
    · exact fun name t ht ↦ h name t (NameMap.get?_of_get?_erase ht)
    · exact h
  | putItem p => exact h.onTable (hr.putItem p rfl)
  | updateItem p =>
    rw [snd_perform_updateItem]
    exact h.onTable (hr.updateItem p rfl)
  | deleteItem p => exact h.onTable (hr.deleteItem p rfl)
  | query p => exact h.onTable fun t ht ↦ ht

end Every

/-- No table holds two items of one key. -/
def Keyed (tables : NameMap Table) : Prop :=
  ∀ name t, tables.get? name = some t → t.Keyed

/-- The request is an update that gives an item the key of another one. -/
def Collides (tables : NameMap Table) (r : Request) : Prop :=
  ∃ p t, r = .updateItem p ∧ tables.get? p.tableName = some t ∧ t.Collides p.key p.updates

/-- Only an update can mix up keys. -/
theorem keeps_keyed_of_ne (hr : ∀ p, r ≠ .updateItem p) : Keeps Table.Keyed r where
  createTable _ := List.nodup_nil
  putItem p _ _ ht := ht.put p.item
  updateItem p hp := absurd hp (hr p)
  deleteItem p _ _ ht := ht.remove p.key

theorem perform_updateItem_of_get? {p : UpdateItem} {t : Table}
    (h : tables.get? p.tableName = some t) :
    (perform tables (.updateItem p)).2 =
      tables.insert p.tableName (t.update p.key p.updates).1 := by
  rw [snd_perform_updateItem, onTable_of_get? h]

/-- A request keeps keys apart, unless it is an update that gives an item the key of another. -/
theorem Keyed.perform_iff (h : Keyed tables) (r : Request) :
    Keyed (perform tables r).2 ↔ ¬ Collides tables r := by
  by_cases hr : ∃ p, r = .updateItem p
  · obtain ⟨p, rfl⟩ := hr
    cases htable : tables.get? p.tableName with
    | none =>
      have hperform : (perform tables (.updateItem p)).2 = tables := by
        rw [perform, onTable_of_get?_eq_none htable]
      rw [hperform]
      refine iff_of_true h ?_
      rintro ⟨p', t, hp, ht, -⟩
      obtain rfl := Request.updateItem.inj hp
      cases htable.symm.trans ht
    | some t =>
      rw [perform_updateItem_of_get? htable]
      refine (Every.insert_iff h).trans (((h _ t htable).update_iff p.key p.updates).trans ?_)
      refine not_congr ⟨fun hcollides ↦ ⟨p, t, rfl, htable, hcollides⟩, ?_⟩
      rintro ⟨p', t', hp, ht, hcollides⟩
      obtain rfl := Request.updateItem.inj hp
      obtain rfl := Option.some.inj (htable.symm.trans ht)
      exact hcollides
  · refine iff_of_true (Every.perform h (keeps_keyed_of_ne fun p hp ↦ hr ⟨p, hp⟩)) ?_
    rintro ⟨p, t, hp, -⟩
    exact hr ⟨p, hp⟩

/-! ## Runs of statements -/

/-- Statements with their parameters, to be run one after another. -/
abbrev Script := List (String × List Param)

/-- The store behind the statements of a script. -/
def run (config : Config) (s : Store) (script : Script) : Store :=
  script.foldl (fun s step ↦ (((connection config).query step.1 step.2).run s).2) s

theorem run_append_singleton (s : Store) (script : Script) (step : String × List Param) :
    run config s (script ++ [step]) =
      (((connection config).query step.1 step.2).run (run config s script)).2 := by
  rw [run, List.foldl_append]
  rfl

/-- A statement changes the tables as its request does, if it has one. -/
theorem tables_query_connection (config : Config) (s : Store) (statement : String)
    (params : List Param) :
    (((connection config).query statement params).run s).2.tables =
      match prepare statement params with
      | .ok r => (perform s.tables r).2
      | .error _ => s.tables := by
  cases hprepare : prepare statement params with
  | error e => rw [query_connection_of_error hprepare]
  | ok r => rw [query_connection_of_ok hprepare, execute_connection]

/-- The requests of the statements that have one. -/
def Script.requests (script : Script) : List Request :=
  script.filterMap fun step ↦ (prepare step.1 step.2).toOption

/-- The tables behind a script are those behind its requests. -/
theorem tables_run (s : Store) (script : Script) :
    (run config s script).tables =
      script.requests.foldl (fun tables r ↦ (perform tables r).2) s.tables := by
  induction script generalizing s with
  | nil => rfl
  | cons step script ih =>
    have hstep := tables_query_connection config s step.1 step.2
    change (run config (((connection config).query step.1 step.2).run s).2 script).tables = _
    rw [ih, hstep, Script.requests, Script.requests, List.filterMap_cons]
    cases prepare step.1 step.2 <;> rfl

/-- What every statement of a script keeps is so of all tables behind it. -/
theorem every_run {P : Table → Prop} {script : Script} (config : Config)
    (h : ∀ r ∈ script.requests, Keeps P r) : Every P (run config .empty script).tables := by
  rw [tables_run]
  -- The induction starts from any tables that have the property.
  suffices hfoldl : ∀ requests : List Request, (∀ r ∈ requests, Keeps P r) →
      ∀ tables, Every P tables →
        Every P (requests.foldl (fun tables r ↦ (perform tables r).2) tables) from
    hfoldl _ h _ (every_empty P)
  intro requests
  induction requests with
  | nil => exact fun _ tables htables ↦ htables
  | cons r requests ih =>
    intro hrequests tables htables
    obtain ⟨hr, hrequests⟩ := List.forall_mem_cons.mp hrequests
    exact ih hrequests _ (htables.perform hr)

/-- Statements none of which is an update keep the keys of every table apart. -/
theorem keyed_run {script : Script} (config : Config)
    (hscript : ∀ p, .updateItem p ∉ script.requests) :
    Keyed (run config .empty script).tables := by
  refine every_run config fun r hr ↦ keeps_keyed_of_ne ?_
  rintro p rfl
  exact hscript p hr

/-- The statement is sent as an update that gives an item the key of another one. -/
def Confuses (tables : NameMap Table) (step : String × List Param) : Prop :=
  ∃ r, prepare step.1 step.2 = .ok r ∧ Collides tables r

theorem Keyed.query_iff {s : Store} (h : Keyed s.tables) (step : String × List Param) :
    Keyed (((connection config).query step.1 step.2).run s).2.tables ↔
      ¬ Confuses s.tables step := by
  rw [tables_query_connection]
  cases hprepare : prepare step.1 step.2 with
  | error e =>
    refine iff_of_true h ?_
    rintro ⟨r, hr, -⟩
    cases hprepare.symm.trans hr
  | ok r =>
    refine (h.perform_iff r).trans (not_congr ⟨fun hcollides ↦ ⟨r, hprepare, hcollides⟩, ?_⟩)
    rintro ⟨r', hr', hcollides⟩
    obtain rfl := Except.ok.inj (hprepare.symm.trans hr')
    exact hcollides

/-- All along a run from the empty store no table holds two items of one key, exactly if no
statement of the run is an update that gives an item the key of another one. -/
theorem keyed_run_iff (config : Config) (script : Script) :
    (∀ done, done <+: script → Keyed (run config .empty done).tables) ↔
      ∀ done step, done ++ [step] <+: script →
        ¬ Confuses (run config .empty done).tables step := by
  induction script using List.reverseRecOn with
  | nil =>
    constructor
    · intro _ done step hprefix
      exact absurd (List.prefix_nil.mp hprefix) (by simp)
    · intro _ done hprefix
      rw [List.prefix_nil.mp hprefix]
      rintro name t ⟨⟩
  | append_singleton script last ih =>
    have hself : script <+: script ++ [last] := List.prefix_append _ _
    constructor
    · intro hkeyed done step hprefix
      rcases List.prefix_concat_iff.mp hprefix with heq | hprefix
      · obtain ⟨rfl, hstep⟩ := List.append_inj' heq rfl
        obtain rfl := List.singleton_inj.mp hstep
        have hlast := hkeyed _ (List.prefix_refl _)
        rw [run_append_singleton] at hlast
        exact ((hkeyed _ hself).query_iff step).mp hlast
      · exact ih.mp (fun done hdone ↦ hkeyed done (hdone.trans hself)) done step hprefix
    · intro hfree done hprefix
      have hscript := ih.mpr fun done step hstep ↦ hfree done step (hstep.trans hself)
      rcases List.prefix_concat_iff.mp hprefix with rfl | hprefix
      · rw [run_append_singleton]
        exact ((hscript _ (List.prefix_refl _)).query_iff last).mpr
          (hfree script last (List.prefix_refl _))
      · exact hscript done hprefix

/-! ## An update that makes two items one -/

/-- Two items with keys of their own, and an update that gives one the key of the other. -/
def twinScript : Script :=
  [("create table t (k string hash)", []),
    ("insert into t (k) values ('a')", []),
    ("insert into t (k) values ('b')", []),
    ("update t set k = 'b' where k = 'a'", [])]

theorem run_twinScript_not_keyed : ¬ Keyed (run {} .empty twinScript).tables := by
  have hrequests : Script.requests twinScript =
      [.createTable ⟨"t", [⟨"k", .string⟩], [⟨"k", .hash⟩], {}⟩,
        .putItem ⟨"t", .ofList [("k", .string "a")]⟩,
        .putItem ⟨"t", .ofList [("k", .string "b")]⟩,
        .updateItem ⟨"t", .ofList [("k", .string "a")], .ofList [("k", .put (.string "b"))]⟩] := by
    decide +kernel
  have htable : (run {} .empty twinScript).tables.get? "t" = some ⟨[⟨"k", .hash⟩],
      [.ofList [("k", .string "b")], .ofList [("k", .string "b")]]⟩ := by
    rw [tables_run, hrequests]
    decide +kernel
  intro h
  exact absurd (h "t" _ htable) (by unfold Table.Keyed; decide)

end Store

end ItemSql
