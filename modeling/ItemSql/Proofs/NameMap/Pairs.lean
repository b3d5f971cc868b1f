import ItemSql.Proofs.NameMap
import ItemSql.Proofs.Projection

/-!
# Maps of pairs

Pairs that are put into a map one by one may name a thing more than once. The map then has the name
where it was given first, with the value that it was given last.
-/

namespace ItemSql

/-- Values may be changed before they are put into the list or behind. -/
theorem Entries.map_put {α β : Type} (f : α → β) (name : String) (value : α)
    (entries : List (String × α)) :
    (put name value entries).map (Prod.map id f) =
      put name (f value) (entries.map (Prod.map id f)) := by
  induction entries with
  | nil => rfl
  | cons e rest ih =>
    obtain ⟨n, v⟩ := e
    simp only [put, List.map_cons, Prod.map_apply, id_eq]
    by_cases h : n = name
    · rw [if_pos h, if_pos h]
      rfl
    · rw [if_neg h, if_neg h, List.map_cons, ih]
      rfl

namespace NameMap

variable {α β : Type}

theorem names_insert (m : NameMap α) (name : String) (value : α) :
    (m.insert name value).names = if name ∈ m.names then m.names else m.names ++ [name] := by
  rw [names, Raw.names, entries_insert, Entries.names_put]
  rfl

theorem names_alter (m : NameMap α) (name : String) (f : α → α) :
    (m.alter name f).names = m.names := by
  rw [names, Raw.names, entries_alter, Entries.names_alter]
  rfl

/-- Each name stands where it was given first. -/
theorem names_ofList (pairs : List (String × α)) :
    (ofList pairs).names = distinct (pairs.map Prod.fst) := by
  induction pairs using List.reverseRecOn with
  | nil => rfl
  | append_singleton pairs pair ih =>
    obtain ⟨name, value⟩ := pair
    rw [ofList_concat, names_insert, ih, List.map_append, List.map_singleton, distinct_concat]

/-- Each name has the value that it was given last. -/
theorem get?_ofList (pairs : List (String × α)) (name : String) :
    (ofList pairs).get? name = pairs.reverse.lookup name := by
  induction pairs using List.reverseRecOn with
  | nil => rfl
  | append_singleton pairs pair ih =>
    obtain ⟨n, value⟩ := pair
    rw [ofList_concat, List.reverse_concat, List.lookup_cons]
    by_cases hname : name = n
    · rw [hname, get?_insert_self, beq_self_eq_true]
    · rw [get?_insert_of_ne hname, ih, beq_false_of_ne hname]

theorem entries_ofList_eq_iff {pairs : List (String × α)} :
    (ofList pairs).entries = pairs ↔ (pairs.map Prod.fst).Nodup := by
  constructor
  · intro h
    have hnodup := (ofList pairs).nodup_names
    rwa [h] at hnodup
  · exact entries_ofList

theorem entries_ofList_map (f : α → β) (pairs : List (String × α)) :
    (ofList (pairs.map (Prod.map id f))).entries =
      (ofList pairs).entries.map (Prod.map id f) := by
  induction pairs using List.reverseRecOn with
  | nil => rfl
  | append_singleton pairs pair ih =>
    obtain ⟨name, value⟩ := pair
    rw [List.map_append, List.map_singleton, Prod.map_apply, ofList_concat, ofList_concat,
      entries_insert, entries_insert, Entries.map_put, ih]
    rfl

end NameMap

end ItemSql
