import ItemSql.Proofs.Store.Keys

/-!
# Writes of one key

An insertion, an update and a deletion each have to do with one key of one table. Whatever has this
key is looked for first, and what is put in its place has the same key, as long as an update names
none of the key attributes. So each of them is the same change of the list of items: the item of the
key is replaced where it stands, by another or by nothing, or a new item goes to the end
(`Table.Replaces`). All that can be said of the items with other keys, of the item of this key and
of the number of items is read off that change.

Key attributes may be missing and a table may have none: the key of an item is the list of what it
has for them, and nothing here looks inside.
-/

namespace ItemSql

namespace Table

variable {t t' : Table} {key item : Item} {K : List (Option AttributeValue)}
  {old? new? : Option Item}

/-! ## Replacing the item of a key -/

/-- The first item with the key of this one. -/
def itemOf? (t : Table) (key : Item) : Option Item :=
  t.items.find? fun item ↦ t.keyOf item = t.keyOf key

/-- What has a key is replaced at its place, and nothing else has the key. -/
inductive Replaces (t : Table) (K : List (Option AttributeValue)) :
    Option Item → Option Item → Table → Prop
  | mk (front back : List Item) {old? new? : Option Item}
      (hitems : t.items = front ++ (old?.toList ++ back))
      (hold : ∀ item ∈ old?, t.keyOf item = K) (hnew : ∀ item ∈ new?, t.keyOf item = K)
      (hothers : ∀ item ∈ front ++ back, t.keyOf item ≠ K) :
      Replaces t K old? new? { t with items := front ++ (new?.toList ++ back) }

namespace Replaces

theorem keySchema_eq (h : t.Replaces K old? new? t') : t'.keySchema = t.keySchema := by
  cases h
  rfl

/-- The items with other keys are the same in the same order. -/
theorem filter_ne (h : t.Replaces K old? new? t') :
    t'.items.filter (fun item ↦ t.keyOf item ≠ K) =
      t.items.filter fun item ↦ t.keyOf item ≠ K := by
  obtain ⟨front, back, hitems, hold, hnew, hothers⟩ := h
  have hnone : ∀ {item? : Option Item}, (∀ item ∈ item?, t.keyOf item = K) →
      item?.toList.filter (fun item ↦ t.keyOf item ≠ K) = [] := by
    intro item? hkey
    refine List.filter_eq_nil_iff.mpr fun item hitem ↦ ?_
    simpa using hkey item (Option.mem_toList.mp hitem)
  rw [hitems]
  simp only [List.filter_append, hnone hold, hnone hnew]

/-- What has the key is the item that was put there, and nothing if there was none. -/
theorem filter_eq (h : t.Replaces K old? new? t') :
    t'.items.filter (fun item ↦ t.keyOf item = K) = new?.toList := by
  obtain ⟨front, back, -, -, hnew, hothers⟩ := h
  rw [List.forall_mem_append] at hothers
  have hnone : ∀ {items : List Item}, (∀ item ∈ items, t.keyOf item ≠ K) →
      items.filter (fun item ↦ t.keyOf item = K) = [] := by
    intro items hkey
    refine List.filter_eq_nil_iff.mpr fun item hitem ↦ ?_
    simpa using hkey item hitem
  have hall : new?.toList.filter (fun item ↦ t.keyOf item = K) = new?.toList := by
    refine List.filter_eq_self.mpr fun item hitem ↦ ?_
    simpa using hnew item (Option.mem_toList.mp hitem)
  rw [List.filter_append, List.filter_append, hnone hothers.1, hnone hothers.2, hall,
    List.nil_append, List.append_nil]

theorem length_add (h : t.Replaces K old? new? t') :
    t'.items.length + old?.toList.length = t.items.length + new?.toList.length := by
  obtain ⟨front, back, hitems, -, -, -⟩ := h
  simp only [hitems, List.length_append]
  omega

theorem mem_keys_iff (h : t.Replaces K old? new? t') : K ∈ t.keys ↔ old?.isSome = true := by
  obtain ⟨front, back, hitems, hold, -, hothers⟩ := h
  rw [keys, List.mem_map, hitems]
  constructor
  · rintro ⟨item, hitem, hkey⟩
    rw [← List.append_assoc, List.mem_append, List.mem_append, or_right_comm] at hitem
    rcases hitem with hitem | hitem
    · exact absurd hkey (hothers item (List.mem_append.mpr hitem))
    · exact Option.isSome_of_mem (Option.mem_toList.mp hitem)
  · intro hsome
    obtain ⟨item, rfl⟩ := Option.isSome_iff_exists.mp hsome
    exact ⟨item, by simp, hold item rfl⟩

end Replaces

/-! ## What each operation replaces -/

theorem itemOf?_of_position?_eq_none (h : t.position? key = none) : t.itemOf? key = none := by
  rw [itemOf?, List.find?_eq_bind_findIdx?_getElem?, ← position?, h, Option.bind_none]

/-- Where nothing has the key, what is put behind all items replaces nothing. -/
theorem replaces_of_position?_eq_none (h : t.position? key = none)
    (hnew : ∀ item ∈ new?, t.keyOf item = t.keyOf key) :
    t.Replaces (t.keyOf key) (t.itemOf? key) new? { t with items := t.items ++ new?.toList } := by
  have hothers : ∀ other ∈ t.items ++ [], t.keyOf other ≠ t.keyOf key := by
    intro other hother heq
    rw [List.append_nil] at hother
    exact notMem_keys_of_position? h (heq ▸ List.mem_map_of_mem hother)
  have hitems : t.items = t.items ++ (Option.toList none ++ []) := (List.append_nil _).symm
  have hreplaces := Replaces.mk t.items [] hitems (by rintro _ ⟨⟩) hnew hothers
  rw [List.append_nil] at hreplaces
  rw [itemOf?_of_position?_eq_none h]
  exact hreplaces

/-- A new item goes to the end. -/
theorem replaces_append (h : t.position? key = none) (hnew : t.keyOf item = t.keyOf key) :
    t.Replaces (t.keyOf key) (t.itemOf? key) (some item)
      { t with items := t.items ++ [item] } :=
  replaces_of_position?_eq_none h (by rintro _ ⟨⟩; exact hnew)

/-- Where keys are apart, what is put at the place of a key replaces the item of the key. -/
theorem Keyed.replaces_of_position? {i : Nat} (h : t.Keyed) (hposition : t.position? key = some i)
    (hnew : ∀ item ∈ new?, t.keyOf item = t.keyOf key) :
    t.Replaces (t.keyOf key) (t.itemOf? key) new?
      { t with items := t.items.take i ++ (new?.toList ++ t.items.drop (i + 1)) } := by
  obtain ⟨item, hitem, hfind⟩ := exists_getElem?_of_position? hposition
  have hkey : t.keyOf item = t.keyOf key := by simpa using List.find?_some hfind
  have hitems : t.items = t.items.take i ++ item :: t.items.drop (i + 1) := by
    obtain ⟨hi, rfl⟩ := List.getElem?_eq_some_iff.mp hitem
    rw [List.getElem_cons_drop, List.take_append_drop]
  rw [itemOf?, hfind]
  refine .mk _ _ hitems ?_ hnew fun other hother ↦ ?_
  · rintro _ ⟨⟩
    exact hkey
  · rw [← hkey]
    exact h.keyOf_ne hitems hother

/-- An item takes the place of the one with its key. -/
theorem Keyed.replaces_set {i : Nat} (h : t.Keyed) (hposition : t.position? key = some i)
    (hnew : t.keyOf item = t.keyOf key) :
    t.Replaces (t.keyOf key) (t.itemOf? key) (some item)
      { t with items := t.items.set i item } := by
  obtain ⟨hi, -⟩ := List.findIdx?_eq_some_iff_getElem.mp hposition
  rw [List.set_eq_take_append_cons_drop, if_pos hi]
  exact h.replaces_of_position? hposition (by rintro _ ⟨⟩; exact hnew)

theorem Keyed.replaces_put (h : t.Keyed) (item : Item) :
    t.Replaces (t.keyOf item) (t.itemOf? item) (some item) (t.put item) := by
  cases hposition : t.position? item with
  | none =>
    rw [Table.put, hposition]
    exact replaces_append hposition rfl
  | some i =>
    rw [Table.put, hposition]
    exact h.replaces_set hposition rfl

theorem Keyed.replaces_remove (h : t.Keyed) (key : Item) :
    t.Replaces (t.keyOf key) (t.itemOf? key) none (t.remove key) := by
  cases hposition : t.position? key with
  | none =>
    have hreplaces : t.Replaces (t.keyOf key) (t.itemOf? key) none _ :=
      replaces_of_position?_eq_none hposition (by rintro _ ⟨⟩)
    rw [Option.toList_none, List.append_nil] at hreplaces
    rw [Table.remove, hposition]
    exact hreplaces
  | some i =>
    rw [Table.remove, hposition]
    dsimp only
    rw [List.eraseIdx_eq_take_drop_succ]
    exact h.replaces_of_position? hposition (by rintro _ ⟨⟩)

/-! ### Updates -/

/-- The item with the values inserted one by one. -/
def insertAll (values : List (String × AttributeValue)) (item : Item) : Item :=
  values.foldl (fun item (name, value) ↦ item.insert name value) item

/-- The values that the changes carry, in order. -/
def carried (updates : List (String × AttributeUpdate)) : List (String × AttributeValue) :=
  updates.filterMap fun u ↦ u.2.value?.map fun value ↦ (u.1, value)

theorem applyUpdates_eq_insertAll {updates : List (String × AttributeUpdate)}
    (h : AllCarry updates) (item : Item) :
    applyUpdates updates item = (insertAll (carried updates) item, none) := by
  induction updates generalizing item with
  | nil => rfl
  | cons u updates ih =>
    obtain ⟨name, update⟩ := u
    obtain ⟨hvalue, hrest⟩ := List.forall_mem_cons.mp h
    obtain ⟨value, hvalue⟩ := Option.ne_none_iff_exists'.mp hvalue
    have hcarried : carried ((name, update) :: updates) = (name, value) :: carried updates :=
      List.filterMap_cons_some (congrArg (Option.map fun value ↦ (name, value)) hvalue)
    rw [applyUpdates_cons hvalue, ih hrest, hcarried]
    rfl

theorem Keyed.replaces_update (h : t.Keyed) {updates : NameMap AttributeUpdate}
    (hcarry : AllCarry updates.toList)
    (hnames : ∀ element ∈ t.keySchema, element.attributeName ∉ updates.names) (key : Item) :
    t.Replaces (t.keyOf key) (t.itemOf? key)
      (some (insertAll (carried updates.toList) ((t.itemOf? key).getD key)))
      (t.update key updates).1 := by
  have hkey := keyOf_applyUpdates hcarry hnames
  cases hposition : t.position? key with
  | none =>
    have hnew := hkey key
    rw [update_of_position?_eq_none hposition]
    rw [applyUpdates_eq_insertAll hcarry] at hnew ⊢
    have hreplaces := replaces_append hposition hnew
    rw [itemOf?_of_position?_eq_none hposition] at hreplaces ⊢
    exact hreplaces
  | some i =>
    obtain ⟨item, hitem, hfind⟩ := exists_getElem?_of_position? hposition
    have hitemOf : t.itemOf? key = some item := hfind
    have hnew := (hkey item).trans (by simpa using List.find?_some hfind)
    rw [update_of_position?_eq_some hposition hitem]
    rw [applyUpdates_eq_insertAll hcarry] at hnew ⊢
    have hreplaces := h.replaces_set hposition hnew
    rw [hitemOf] at hreplaces ⊢
    exact hreplaces

end Table

/-! ## Requests that write one key -/

/-- A request that writes one key of a table. -/
inductive PointWrite where
  | put (p : PutItem)
  | update (p : UpdateItem)
  | delete (p : DeleteItem)

namespace PointWrite

/-- The request of a write. -/
def request : PointWrite → Request
  | put p => .putItem p
  | update p => .updateItem p
  | delete p => .deleteItem p

/-- The item that tells the key. -/
def key : PointWrite → Item
  | put p => p.item
  | update p => p.key
  | delete p => p.key

/-- What the write makes of the item of its key, if there is one: an insertion stores its own item,
an update inserts its values into the item or else into the key, and a deletion leaves nothing. -/
def outcome : PointWrite → Option Item → Option Item
  | put p, _ => some p.item
  | update p, old? => some (Table.insertAll (Table.carried p.updates.toList) (old?.getD p.key))
  | delete _, _ => none

/-- The write stores an item, so it is no deletion. -/
def Stores (w : PointWrite) : Prop :=
  ∀ p, w ≠ delete p

/-- If the write is an update, every change carries a value and none is of a key attribute. -/
def KeepsKey (w : PointWrite) (t : Table) : Prop :=
  ∀ p, w = update p → Table.AllCarry p.updates.toList ∧
    ∀ element ∈ t.keySchema, element.attributeName ∉ p.updates.names

/-- One table is another after the write: its key has what the write makes of it, and nothing else
has changed. -/
structure Touches (w : PointWrite) (t t' : Table) : Prop where
  keySchema : t'.keySchema = t.keySchema
  /-- The items with other keys are the same in the same order. -/
  others : t'.items.filter (fun item ↦ t.keyOf item ≠ t.keyOf w.key) =
    t.items.filter fun item ↦ t.keyOf item ≠ t.keyOf w.key
  /-- What has the key is what the write makes of the item that had it. -/
  own : t'.items.filter (fun item ↦ t.keyOf item = t.keyOf w.key) =
    (w.outcome (t.itemOf? w.key)).toList
  grows : t'.items.length = t.items.length + 1 ↔ w.Stores ∧ t.keyOf w.key ∉ t.keys
  shrinks : t.items.length = t'.items.length + 1 ↔ ¬ w.Stores ∧ t.keyOf w.key ∈ t.keys
  stays : t'.items.length = t.items.length ↔ (w.Stores ↔ t.keyOf w.key ∈ t.keys)

variable {w : PointWrite} {t t' : Table}

theorem stores_iff (old? : Option Item) : w.Stores ↔ (w.outcome old?).isSome = true := by
  cases w with
  | put p => exact iff_of_true nofun rfl
  | update p => exact iff_of_true nofun rfl
  | delete p => exact iff_of_false (fun h ↦ h p rfl) nofun

theorem touches_of_replaces
    (h : t.Replaces (t.keyOf w.key) (t.itemOf? w.key) (w.outcome (t.itemOf? w.key)) t') :
    w.Touches t t' := by
  have hlength := h.length_add
  have hmem := h.mem_keys_iff
  have hstores := w.stores_iff (t.itemOf? w.key)
  have hcount : ∀ item? : Option Item, item?.toList.length = if item?.isSome then 1 else 0 := by
    rintro (_ | item) <;> rfl
  rw [hcount, hcount] at hlength
  refine ⟨h.keySchema_eq, h.filter_ne, h.filter_eq, ?_, ?_, ?_⟩
  · rw [hmem, hstores]
    grind
  · rw [hmem, hstores]
    grind
  · rw [hmem, hstores]
    grind

/-- The table behind a write that keeps its key. -/
theorem touches_perform {tables : NameMap Table} (ht : tables.get? w.request.tableName = some t)
    (hkeyed : t.Keyed) (hkeeps : w.KeepsKey t) :
    ∃ t', (Store.perform tables w.request).2 = tables.insert w.request.tableName t' ∧
      w.Touches t t' := by
  cases w with
  | put p =>
    refine ⟨t.put p.item, ?_, touches_of_replaces (hkeyed.replaces_put p.item)⟩
    exact congrArg Prod.snd (Store.onTable_of_get? ht)
  | update p =>
    obtain ⟨hcarry, hnames⟩ := hkeeps p rfl
    exact ⟨(t.update p.key p.updates).1, Store.perform_updateItem_of_get? ht,
      touches_of_replaces (hkeyed.replaces_update hcarry hnames p.key)⟩
  | delete p =>
    refine ⟨t.remove p.key, ?_, touches_of_replaces (hkeyed.replaces_remove p.key)⟩
    exact congrArg Prod.snd (Store.onTable_of_get? ht)

/-- A write of a table that does not exist fails. -/
theorem exists_get?_of_perform {tables tables' : NameMap Table} {answer : String}
    (h : Store.perform tables w.request = (some (.ok answer), tables')) :
    ∃ t, tables.get? w.request.tableName = some t := by
  refine Option.ne_none_iff_exists'.mp fun hnone ↦ ?_
  have hrefused : (Store.perform tables w.request).1 =
      some (.error (Store.tableNotFound w.request.tableName)) := by
    cases w with
    | put p => exact congrArg Prod.fst (Store.onTable_of_get?_eq_none hnone)
    | update p => exact congrArg Prod.fst (Store.onTable_of_get?_eq_none hnone)
    | delete p => exact congrArg Prod.fst (Store.onTable_of_get?_eq_none hnone)
  rw [h] at hrefused
  cases hrefused

end PointWrite

namespace Store

variable {s s' : Store} {r : Request} {target : String} {body reply : Text.Bytes}

/-- A request that succeeds is performed. -/
theorem perform_of_send (hoperation : operationOf? target = some r.operation)
    (hpayload : Json.Decode.bytes (Request.decode r.operation) body = .ok r)
    (hsend : s.send target body = (some (.ok reply), s')) :
    ∃ text, perform s.tables r = (some (.ok text), s'.tables) := by
  rw [send] at hsend
  cases hjson : Json.ofBytes body with
  | error fault =>
    rw [hjson] at hsend
    cases (Prod.mk.inj hsend).1
  | ok json =>
    rw [hjson, answer, hoperation] at hsend
    dsimp only at hsend
    rw [hpayload] at hsend
    dsimp only at hsend
    obtain ⟨hresult, rfl⟩ := Prod.mk.inj hsend
    cases hperform : perform s.tables r with
    | mk result tables =>
      rw [hperform] at hresult
      obtain ⟨answered, rfl, hresponse⟩ := Option.map_eq_some_iff.mp hresult
      cases answered with
      | error e => cases hresponse
      | ok text => exact ⟨text, rfl⟩

/-- A write that succeeds, in a store whose tables keep their keys apart, touches one key of its
table and no other table. -/
theorem send_pointWrite {w : PointWrite} (hkeyed : Keyed s.tables)
    (hoperation : operationOf? target = some w.request.operation)
    (hpayload : Json.Decode.bytes (Request.decode w.request.operation) body = .ok w.request)
    (hkeeps : ∀ t, s.tables.get? w.request.tableName = some t → w.KeepsKey t)
    (hsend : s.send target body = (some (.ok reply), s')) :
    ∃ t t', s.tables.get? w.request.tableName = some t ∧
      s'.tables.get? w.request.tableName = some t' ∧
      (∀ name, name ≠ w.request.tableName → s'.tables.get? name = s.tables.get? name) ∧
      w.Touches t t' := by
  obtain ⟨text, hperform⟩ := perform_of_send hoperation hpayload hsend
  obtain ⟨t, ht⟩ := PointWrite.exists_get?_of_perform hperform
  obtain ⟨t', htables, htouches⟩ := PointWrite.touches_perform ht (hkeyed _ t ht) (hkeeps t ht)
  rw [hperform] at htables
  have htables : s'.tables = s.tables.insert w.request.tableName t' := htables
  refine ⟨t, t', ht, ?_, fun name hname ↦ ?_, htouches⟩
  · rw [htables, NameMap.get?_insert_self]
  · rw [htables, NameMap.get?_insert_of_ne hname]

/-! ### An update of an item that has no range key -/

/-- Three items, two of which agree in the first key attribute; one of these has no other. -/
def pairTable : Table :=
  ⟨[⟨"k", .hash⟩, ⟨"r", .range⟩],
    [.ofList [("k", .string "a"), ("r", .number "1"), ("x", .string "old")],
      .ofList [("x", .string "old"), ("k", .string "a")],
      .ofList [("k", .string "b"), ("r", .number "1")]]⟩

def pairStore : Store :=
  ⟨.ofList [("t", pairTable)], []⟩

/-- An update by half a key. -/
def halfKeyUpdate : UpdateItem :=
  ⟨"t", .ofList [("k", .string "a")],
    .ofList [("y", .put (.string "new")), ("x", .put (.number "3"))]⟩

theorem keyed_pairStore : Keyed pairStore.tables := by
  intro name t ht
  have hmem : (name, t) ∈ [("t", pairTable)] := NameMap.mem_entries_iff.mpr ht
  obtain ⟨-, rfl⟩ := Prod.mk.inj (List.mem_singleton.mp hmem)
  rw [Table.Keyed]
  decide

theorem send_pointWrite_halfKey :
    Keyed pairStore.tables ∧ (PointWrite.update halfKeyUpdate).KeepsKey pairTable ∧
      ∃ reply s' t', pairStore.send "local.UpdateItem"
          (Text.utf8 (Request.updateItem halfKeyUpdate).body) = (some (.ok reply), s') ∧
        s'.tables.get? "t" = some t' ∧ (PointWrite.update halfKeyUpdate).Touches pairTable t' ∧
        t'.items.filter (fun item ↦ pairTable.keyOf item = [some (.string "a"), none]) =
          [.ofList [("x", .number "3"), ("k", .string "a"), ("y", .string "new")]] := by
  have hkeeps : (PointWrite.update halfKeyUpdate).KeepsKey pairTable := by
    rintro _ ⟨⟩
    have hcarry : ∀ u ∈ halfKeyUpdate.updates.toList, u.2.value? ≠ none := by decide
    exact ⟨hcarry, by decide⟩
  have hperform : perform pairStore.tables (.updateItem halfKeyUpdate) =
      (some (.ok acknowledgement), (perform pairStore.tables (.updateItem halfKeyUpdate)).2) := by
    decide +kernel
  have hsend := send_body pairStore "local" (.updateItem halfKeyUpdate)
  rw [hperform] at hsend
  have ht : pairStore.tables.get? "t" = some pairTable := by decide +kernel
  obtain ⟨t, t', ht₀, ht', -, htouches⟩ := send_pointWrite (w := .update halfKeyUpdate)
    keyed_pairStore (operationOf?_target .updateItem "local")
    (bytes_body (.updateItem halfKeyUpdate))
    (fun t ht₀ ↦ Option.some.inj (ht.symm.trans ht₀) ▸ hkeeps) hsend
  obtain rfl := Option.some.inj (ht.symm.trans ht₀)
  refine ⟨keyed_pairStore, hkeeps, _, _, t', hsend, ht', htouches, htouches.own.trans ?_⟩
  decide +kernel

end Store

end ItemSql
