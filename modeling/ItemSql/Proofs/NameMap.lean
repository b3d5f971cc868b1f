import ItemSql.NameMap
import Mathlib.Data.List.Forall2

/-!
# Laws of maps from names

What a look-up answers behind an insertion, and what an insertion changes. The laws are proved for
lists of entries and hold of the map because its index only finds what a search would.
-/

namespace ItemSql

namespace Entries

variable {α : Type} {name : String} {value : α} {entries : List (String × α)}

theorem lookup_put_self : (put name value entries).lookup name = some value := by
  induction entries with
  | nil => rw [put, List.lookup_cons_self]
  | cons e rest ih =>
    obtain ⟨n, v⟩ := e
    rw [put]
    by_cases h : n = name
    · rw [if_pos h, h, List.lookup_cons_self]
    · rw [if_neg h, List.lookup_cons, beq_false_of_ne (Ne.symm h)]
      exact ih

theorem lookup_put_of_ne {other : String} (hne : other ≠ name) :
    (put name value entries).lookup other = entries.lookup other := by
  induction entries with
  | nil => rw [put, List.lookup_cons, beq_false_of_ne hne]
  | cons e rest ih =>
    obtain ⟨n, v⟩ := e
    rw [put]
    by_cases h : n = name
    · rw [if_pos h, h, List.lookup_cons, List.lookup_cons, beq_false_of_ne hne]
    · rw [if_neg h, List.lookup_cons, List.lookup_cons, ih]

theorem put_of_lookup (h : entries.lookup name = some value) :
    put name value entries = entries := by
  induction entries with
  | nil => cases h
  | cons e rest ih =>
    obtain ⟨n, v⟩ := e
    rw [put]
    by_cases hn : n = name
    · rw [hn, List.lookup_cons_self] at h
      rw [if_pos hn, Option.some.inj h]
    · rw [List.lookup_cons, beq_false_of_ne (Ne.symm hn)] at h
      rw [if_neg hn, ih h]

theorem put_of_notMem (h : name ∉ names entries) :
    put name value entries = entries ++ [(name, value)] := by
  induction entries with
  | nil => rfl
  | cons e rest ih =>
    obtain ⟨n, v⟩ := e
    obtain ⟨hne, hrest⟩ := not_or.mp (mt List.mem_cons.mpr h)
    rw [put, if_neg (Ne.symm hne), ih hrest, List.cons_append]

theorem mem_put {e : String × α} (h : e ∈ put name value entries) :
    e = (name, value) ∨ e ∈ entries := by
  induction entries with
  | nil => exact .inl (List.mem_singleton.mp h)
  | cons first rest ih =>
    obtain ⟨n, v⟩ := first
    rw [put] at h
    split at h
    · rename_i hn
      rcases List.mem_cons.mp h with rfl | h
      · exact .inl (by rw [hn])
      · exact .inr (.tail _ h)
    · rcases List.mem_cons.mp h with rfl | h
      · exact .inr List.mem_cons_self
      · exact (ih h).imp_right (.tail _)

theorem lookup_of_mem (hnames : (names entries).Nodup) (h : (name, value) ∈ entries) :
    entries.lookup name = some value := by
  induction entries with
  | nil => cases h
  | cons e rest ih =>
    obtain ⟨n, v⟩ := e
    obtain ⟨hnew, hrest⟩ := List.nodup_cons.mp hnames
    rcases List.mem_cons.mp h with heq | hmem
    · obtain ⟨rfl, rfl⟩ := Prod.mk.inj heq
      rw [List.lookup_cons_self]
    · have hne : name ≠ n := by
        rintro rfl
        exact hnew (List.mem_map.mpr ⟨_, hmem, rfl⟩)
      rw [List.lookup_cons, beq_false_of_ne hne]
      exact ih hrest hmem

theorem mem_of_lookup (h : entries.lookup name = some value) : (name, value) ∈ entries := by
  obtain ⟨before, after, rfl, -⟩ := List.lookup_eq_some_iff.mp h
  exact List.mem_append_right _ List.mem_cons_self

theorem lookup_alter (name other : String) (f : α → α) (entries : List (String × α)) :
    (alter name f entries).lookup other =
      if other = name then (entries.lookup other).map f else entries.lookup other := by
  induction entries with
  | nil => exact (ite_self none).symm
  | cons e rest ih =>
    obtain ⟨n, v⟩ := e
    rw [alter_cons]
    by_cases hother : other = n
    · subst hother
      rw [List.lookup_cons_self, List.lookup_cons_self, Option.map_some]
      split <;> rfl
    · rw [List.lookup_cons, List.lookup_cons, beq_false_of_ne hother]
      exact ih

theorem lookup_filter (wanted : String → Bool) (h : wanted name = true) :
    (entries.filter fun (n, _) ↦ wanted n).lookup name = entries.lookup name := by
  induction entries with
  | nil => rfl
  | cons e rest ih =>
    obtain ⟨n, v⟩ := e
    rw [List.filter_cons]
    by_cases hn : wanted n = true
    · rw [if_pos hn, List.lookup_cons, List.lookup_cons, ih]
    · have hne : name ≠ n := by
        rintro rfl
        exact hn h
      rw [if_neg hn, List.lookup_cons, beq_false_of_ne hne]
      exact ih

theorem lookup_map {β : Type} (f : α → β) :
    (entries.map (Prod.map id f)).lookup name = (entries.lookup name).map f := by
  induction entries with
  | nil => rfl
  | cons e rest ih =>
    obtain ⟨n, v⟩ := e
    rw [List.map_cons, Prod.map_apply, id_eq, List.lookup_cons, List.lookup_cons, ih]
    cases name == n <;> rfl

theorem lookup_of_lookup_filter {other : String}
    (h : (entries.filter fun (n, _) ↦ n ≠ name).lookup other = some value) :
    entries.lookup other = some value := by
  have hother := (List.mem_filter.mp (mem_of_lookup h)).2
  exact (lookup_filter (fun n ↦ n ≠ name) hother).symm.trans h

/-! ## Related values -/

section Related

variable {β : Type} {R : α → β → Prop} {entries' : List (String × β)}

/-- The values of two lists are related entry by entry, and the names are the same. -/
def Related (R : α → β → Prop) (entries : List (String × α)) (entries' : List (String × β)) :
    Prop :=
  List.Forall₂ (fun e e' ↦ e.1 = e'.1 ∧ R e.2 e'.2) entries entries'

theorem Related.names_eq (h : Related R entries entries') :
    entries.map Prod.fst = entries'.map Prod.fst := by
  rw [← List.forall₂_eq_eq_eq, List.forall₂_map_left_iff, List.forall₂_map_right_iff]
  exact h.imp fun _ _ he ↦ he.1

theorem Related.flip (h : Related R entries entries') :
    Related (fun b a ↦ R a b) entries' entries :=
  List.Forall₂.flip (h.imp fun _ _ he ↦ ⟨he.1.symm, he.2⟩)

theorem Related.exists_lookup (h : Related R entries entries')
    (hvalue : entries.lookup name = some value) :
    ∃ value', entries'.lookup name = some value' ∧ R value value' := by
  induction h with
  | nil => cases hvalue
  | @cons e e' _ _ he _ ih =>
    obtain ⟨n, v⟩ := e
    obtain ⟨_, v'⟩ := e'
    obtain ⟨rfl, hv⟩ := he
    rw [List.lookup_cons] at hvalue ⊢
    cases hname : name == n with
    | true =>
      rw [hname] at hvalue
      obtain rfl := Option.some.inj hvalue
      exact ⟨v', rfl, hv⟩
    | false =>
      rw [hname] at hvalue
      exact ih hvalue

end Related

end Entries

namespace NameMap

variable {α : Type} {m : NameMap α} {name : String} {value : α}

@[simp] theorem get?_insert_self : (m.insert name value).get? name = some value := by
  rw [get?_eq_lookup, entries_insert, Entries.lookup_put_self]

theorem get?_insert_of_ne {other : String} (hne : other ≠ name) :
    (m.insert name value).get? other = m.get? other := by
  rw [get?_eq_lookup, entries_insert, Entries.lookup_put_of_ne hne, get?_eq_lookup]

theorem get?_of_mem (h : (name, value) ∈ m.entries) : m.get? name = some value := by
  rw [get?_eq_lookup]
  exact Entries.lookup_of_mem m.nodup_names h

theorem mem_entries_iff : (name, value) ∈ m.entries ↔ m.get? name = some value := by
  refine ⟨get?_of_mem, fun h ↦ Entries.mem_of_lookup ?_⟩
  rw [← get?_eq_lookup, h]

theorem get?_alter (name other : String) (f : α → α) :
    (m.alter name f).get? other =
      if other = name then (m.get? other).map f else m.get? other := by
  rw [get?_eq_lookup, entries_alter, Entries.lookup_alter, get?_eq_lookup]

theorem get?_eq_none_iff : m.get? name = none ↔ name ∉ m.names := by
  rw [Option.eq_none_iff_forall_ne_some, names, Raw.names, Entries.names, List.mem_map]
  constructor
  · rintro h ⟨⟨n, v⟩, hmem, rfl⟩
    exact h v (get?_of_mem hmem)
  · intro h v hv
    exact h ⟨_, mem_entries_iff.mpr hv, rfl⟩

/-- A new name goes to the end. -/
theorem entries_insert_of_nodup {rest : List (String × α)}
    (h : (Entries.names (m.entries ++ (name, value) :: rest)).Nodup) :
    (m.insert name value).entries = m.entries ++ [(name, value)] := by
  rw [entries_insert]
  refine Entries.put_of_notMem fun hmem ↦ ?_
  rw [Entries.names, List.map_append] at h
  exact (List.nodup_append.mp h).2.2 name hmem name List.mem_cons_self rfl

/-- Pairs of distinct names are the entries of their map. -/
theorem entries_ofList {pairs : List (String × α)} (h : (Entries.names pairs).Nodup) :
    (ofList pairs).entries = pairs := by
  suffices hfoldl : ∀ m : NameMap α, (Entries.names (m.entries ++ pairs)).Nodup →
      (pairs.foldl (fun m (name, value) ↦ m.insert name value) m).entries = m.entries ++ pairs from
    hfoldl ∅ h
  clear h
  induction pairs with
  | nil => exact fun m _ ↦ (List.append_nil _).symm
  | cons pair pairs ih =>
    obtain ⟨name, value⟩ := pair
    intro m hnames
    have hinsert := entries_insert_of_nodup hnames
    rw [List.append_cons, ← hinsert] at hnames ⊢
    exact ih _ hnames

theorem ofList_concat (pairs : List (String × α)) (name : String) (value : α) :
    ofList (pairs ++ [(name, value)]) = (ofList pairs).insert name value := by
  rw [ofList, List.foldl_append]
  rfl

theorem mem_of_mem_entries_ofList {pairs : List (String × α)} {e : String × α}
    (h : e ∈ (ofList pairs).entries) : e ∈ pairs := by
  suffices hfoldl : ∀ m : NameMap α,
      e ∈ (pairs.foldl (fun m (name, value) ↦ m.insert name value) m).entries →
        e ∈ m.entries ∨ e ∈ pairs from
    (hfoldl empty h).resolve_left List.not_mem_nil
  clear h
  induction pairs with
  | nil => exact fun m h ↦ .inl h
  | cons pair pairs ih =>
    intro m h
    rcases ih _ h with h | h
    · rw [entries_insert] at h
      rcases Entries.mem_put h with rfl | h
      · exact .inr List.mem_cons_self
      · exact .inl h
    · exact .inr (.tail _ h)

theorem entries_insert_ne_nil : (m.insert name value).entries ≠ [] := by
  intro h
  have hget : (m.insert name value).get? name = some value := get?_insert_self
  rw [get?_eq_lookup, h] at hget
  cases hget

theorem entries_ofList_ne_nil {pairs : List (String × α)} (h : pairs ≠ []) :
    (ofList pairs).entries ≠ [] := by
  rcases List.eq_nil_or_concat pairs with rfl | ⟨before, ⟨name, value⟩, rfl⟩
  · exact absurd rfl h
  · rw [List.concat_eq_append, ofList_concat]
    exact entries_insert_ne_nil

/-- The entries that stay, in their order. -/
theorem entries_ofList_filter (m : NameMap α) (p : String × α → Bool) :
    (ofList (m.entries.filter p)).entries = m.entries.filter p :=
  entries_ofList (m.nodup_names.sublist (List.filter_sublist.map Prod.fst))

theorem get?_restrict (wanted : String → Bool) (h : wanted name = true) :
    (m.restrict wanted).get? name = m.get? name := by
  rw [get?_eq_lookup, restrict, entries_ofList_filter, Entries.lookup_filter wanted h,
    get?_eq_lookup]

theorem get?_of_get?_erase {other : String} (h : (m.erase name).get? other = some value) :
    m.get? other = some value := by
  rw [get?_eq_lookup, erase, entries_ofList_filter] at h
  rw [get?_eq_lookup]
  exact Entries.lookup_of_lookup_filter h

theorem insert_eq_self_iff : m.insert name value = m ↔ m.get? name = some value := by
  constructor
  · intro h
    rw [← h, get?_insert_self]
  · intro h
    rw [get?_eq_lookup] at h
    exact ext ((entries_insert m name value).trans (Entries.put_of_lookup h))

end NameMap

end ItemSql
