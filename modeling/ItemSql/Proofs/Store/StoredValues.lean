import ItemSql.Proofs.Statement.WellFormed
import ItemSql.Proofs.Store.Keys

/-!
# Values that are stored

A store that is filled by statements holds what can be written in a statement and nothing else:
strings, and numbers that are numerals (`written_run`). In particular no number of it is read as a
double that is no number, although the store checks nothing. Every value of a request comes from the
text, and an item comes of the values of requests, whole or one by one.
-/

namespace ItemSql

/-- All values of the item can be written in a statement. -/
def Item.Written (item : Item) : Prop :=
  ∀ name value, item.get? name = some value → value.Written

namespace Item

variable {item : Item}

theorem written_iff : item.Written ↔ ∀ value ∈ item.entries.map (·.2), value.Written := by
  constructor
  · intro h value hvalue
    obtain ⟨⟨name, value⟩, hentry, rfl⟩ := List.mem_map.mp hvalue
    exact h name value (NameMap.get?_of_mem hentry)
  · intro h name value hget
    exact h value (List.mem_map_of_mem (NameMap.mem_entries_iff.mpr hget))

theorem Written.insert (h : item.Written) {value : AttributeValue} (hvalue : value.Written)
    (name : String) : Item.Written (item.insert name value) := by
  intro other value' hget
  by_cases hother : other = name
  · subst hother
    rw [NameMap.get?_insert_self] at hget
    exact Option.some.inj hget ▸ hvalue
  · rw [NameMap.get?_insert_of_ne hother] at hget
    exact h other value' hget

theorem Written.applyUpdates (h : item.Written) {updates : List (String × AttributeUpdate)}
    (hupdates : ∀ value ∈ updates.filterMap (·.2.value?), value.Written) :
    Item.Written (Table.applyUpdates updates item).1 := by
  induction updates generalizing item with
  | nil => exact h
  | cons u updates ih =>
    obtain ⟨name, update⟩ := u
    cases hvalue : update.value? with
    | none =>
      -- The updates end here, whatever stands behind.
      rw [Table.applyUpdates_cons_none hvalue]
      exact h
    | some value =>
      simp only [List.filterMap_cons, hvalue] at hupdates
      obtain ⟨hfirst, hrest⟩ := List.forall_mem_cons.mp hupdates
      rw [Table.applyUpdates_cons hvalue]
      exact ih (h.insert hfirst name) hrest

end Item

/-! ## Tables -/

namespace Table

variable {t : Table} {item key : Item}

/-- All values of the items can be written in a statement. -/
def Written (t : Table) : Prop :=
  ∀ item ∈ t.items, item.Written

theorem Written.append (h : t.Written) (hitem : item.Written) :
    Table.Written { t with items := t.items ++ [item] } := by
  intro other hother
  rcases List.mem_append.mp hother with hother | hother
  · exact h other hother
  · exact List.mem_singleton.mp hother ▸ hitem

theorem Written.set (h : t.Written) (hitem : item.Written) (i : Nat) :
    Table.Written { t with items := t.items.set i item } := by
  intro other hother
  rcases List.mem_or_eq_of_mem_set hother with hother | rfl
  · exact h other hother
  · exact hitem

theorem Written.put (h : t.Written) (hitem : item.Written) : (t.put item).Written := by
  rw [Table.put]
  split
  · exact h.set hitem _
  · exact h.append hitem

theorem Written.remove (h : t.Written) (key : Item) : (t.remove key).Written := by
  rw [Table.remove]
  split
  · exact fun item hitem ↦ h item (List.mem_of_mem_eraseIdx hitem)
  · exact h

theorem Written.update (h : t.Written) (hkey : key.Written) {updates : NameMap AttributeUpdate}
    (hupdates : ∀ value ∈ updates.entries.filterMap (·.2.value?), value.Written) :
    (t.update key updates).1.Written := by
  cases hposition : t.position? key with
  | none =>
    rw [update_of_position?_eq_none hposition]
    exact h.append (hkey.applyUpdates hupdates)
  | some i =>
    obtain ⟨item, hitem, -⟩ := exists_getElem?_of_position? hposition
    rw [update_of_position?_eq_some hposition hitem]
    exact h.set ((h item (List.mem_of_getElem? hitem)).applyUpdates hupdates) i

end Table

/-! ## Requests and runs -/

namespace Store

/-- A request whose values are written leaves tables of written values so. -/
theorem keeps_written {r : Request} (h : ∀ value ∈ r.values, value.Written) :
    Keeps Table.Written r where
  createTable _ := nofun
  putItem := by
    rintro p rfl t ht
    exact ht.put (Item.written_iff.mpr h)
  updateItem := by
    rintro p rfl t ht
    obtain ⟨hkey, hupdates⟩ := List.forall_mem_append.mp h
    exact ht.update (Item.written_iff.mpr hkey) hupdates
  deleteItem p _ t ht := ht.remove p.key

/-- The values of a request are literals of the text that it is parsed from. -/
theorem written_of_prepare {statement : String} {params : List Param} {r : Request}
    (h : prepare statement params = .ok r) : ∀ value ∈ r.values, value.Written := by
  obtain ⟨source, hparse⟩ := exists_parse_of_prepare h
  intro value hvalue
  obtain ⟨s, hs, hliteral⟩ := (Statement.sentence_of_parse hparse).makes.drawn.values value hvalue
  exact hliteral.written ((Token.scanned_scan source).isCut s hs)

/-- Behind any statements all values that are stored are written. -/
theorem written_run (config : Config) (script : Script) :
    Every Table.Written (run config .empty script).tables := by
  refine every_run config fun r hr ↦ keeps_written ?_
  obtain ⟨step, -, hstep⟩ := List.mem_filterMap.mp hr
  cases hprepare : prepare step.1 step.2 with
  | error e =>
    rw [hprepare] at hstep
    cases hstep
  | ok r' =>
    rw [hprepare] at hstep
    obtain rfl := Option.some.inj hstep
    exact written_of_prepare hprepare

end Store

end ItemSql
