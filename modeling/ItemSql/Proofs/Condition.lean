import ItemSql.Condition
import ItemSql.Proofs.NameMap
import Mathlib.Data.List.Induction

/-!
# What a clause comes to

The conditions of a clause are found by folding its expressions one by one. What comes of it for one
attribute depends on the expressions about this attribute alone: their values are gathered in order,
and the operator is that of the last one (`get?_conditions`). If no attribute is named twice, the
conditions are the expressions themselves (`entries_conditions`). A key and the updates of an item
gather nothing: they are the maps of what the expressions give (`key_eq_ofList`).
-/

namespace ItemSql.Expression

variable {clause : List Expression} {name : String}

/-- The expressions of a clause about an attribute. -/
def about (name : String) (clause : List Expression) : List Expression :=
  clause.filter fun e ↦ e.name = name

/-- The condition that an expression states on its own. -/
def condition (e : Expression) : Condition :=
  ⟨e.operator, e.values⟩

theorem about_concat (name : String) (clause : List Expression) (e : Expression) :
    about name (clause ++ [e]) =
      if name = e.name then about name clause ++ [e] else about name clause := by
  rw [about, List.filter_append, List.filter_cons, List.filter_nil, ← about]
  by_cases hname : name = e.name
  · rw [if_pos hname, decide_eq_true hname.symm]
    rfl
  · rw [if_neg hname, decide_eq_false (Ne.symm hname)]
    exact List.append_nil _

theorem conditions_append (clause : List Expression) (e : Expression) :
    conditions (clause ++ [e]) = addCondition (conditions clause) e := by
  rw [conditions, conditions, List.foldl_append]
  rfl

/-! ## One attribute -/

/-- An expression goes behind those on its attribute, and leaves the others alone. -/
theorem get?_addCondition (conditions : NameMap Condition) (e : Expression) (name : String) :
    (addCondition conditions e).get? name =
      if name = e.name then
        some ⟨e.operator, ((conditions.get? e.name).elim [] (·.values)) ++ e.values⟩
      else conditions.get? name := by
  rw [addCondition, NameMap.contains_eq]
  by_cases hname : name = e.name
  · subst hname
    rw [if_pos rfl]
    cases hget : conditions.get? e.name with
    | none =>
      rw [Option.isSome_none, if_neg Bool.false_ne_true, NameMap.get?_insert_self]
      rfl
    | some c =>
      rw [Option.isSome_some, if_pos rfl, NameMap.get?_alter, if_pos rfl, hget]
      rfl
  · rw [if_neg hname]
    split
    · rw [NameMap.get?_alter, if_neg hname]
    · rw [NameMap.get?_insert_of_ne hname]

/-- The condition on an attribute has the last operator and the values of all its expressions. -/
theorem get?_conditions (clause : List Expression) (name : String) :
    (conditions clause).get? name = (about name clause).getLast?.map fun last ↦
      ⟨last.operator, (about name clause).flatMap (·.values)⟩ := by
  -- From the end of the clause, where the fold is.
  induction clause using List.reverseRecOn with
  | nil => rfl
  | append_singleton clause e ih =>
    rw [conditions_append, get?_addCondition]
    by_cases hname : name = e.name
    · subst hname
      have hvalues : ((conditions clause).get? e.name).elim [] (·.values) =
          (about e.name clause).flatMap (·.values) := by
        rw [ih]
        cases habout : about e.name clause using List.reverseRecOn with
        | nil => rfl
        | append_singleton before last => rw [List.getLast?_concat]; rfl
      rw [if_pos rfl, hvalues, about_concat, if_pos rfl, List.getLast?_concat, List.flatMap_append,
        List.flatMap_singleton]
      rfl
    · rw [if_neg hname, ih, about_concat, if_neg hname]

theorem names_conditions_subset (h : name ∈ (conditions clause).names) :
    name ∈ clause.map (·.name) := by
  have hsome : (conditions clause).get? name ≠ none :=
    mt NameMap.get?_eq_none_iff.mp (not_not_intro h)
  rw [get?_conditions, ne_eq, Option.map_eq_none_iff, List.getLast?_eq_none_iff] at hsome
  obtain ⟨e, he⟩ := List.exists_mem_of_ne_nil _ hsome
  obtain ⟨hmem, hname⟩ := List.mem_filter.mp he
  exact List.mem_map.mpr ⟨e, hmem, of_decide_eq_true hname⟩

/-- The values of a condition are those of the expressions on its attribute. -/
theorem exists_of_mem_values {c : Condition} {value : AttributeValue}
    (h : (name, c) ∈ (conditions clause).entries) (hvalue : value ∈ c.values) :
    ∃ e ∈ clause, value ∈ e.values := by
  have hget := NameMap.get?_of_mem h
  rw [get?_conditions, Option.map_eq_some_iff] at hget
  obtain ⟨last, -, rfl⟩ := hget
  obtain ⟨e, he, hvalue⟩ := List.mem_flatMap.mp hvalue
  exact ⟨e, (List.mem_filter.mp he).1, hvalue⟩

/-- A condition has a value if the expressions have. -/
theorem values_ne_nil_of_mem {c : Condition} (h : (name, c) ∈ (conditions clause).entries)
    (hclause : ∀ e ∈ clause, e.values ≠ []) : c.values ≠ [] := by
  have hget := NameMap.get?_of_mem h
  rw [get?_conditions, Option.map_eq_some_iff] at hget
  obtain ⟨last, hlast, rfl⟩ := hget
  intro hnil
  have hmem : last ∈ about name clause := List.mem_of_getLast? hlast
  exact hclause last (List.mem_filter.mp hmem).1 (List.flatMap_eq_nil_iff.mp hnil last hmem)

/-! ## Keys and updates -/

/-- What the expressions of a clause give to their attributes. -/
def given {α : Type} (f : AttributeValue → α) (clause : List Expression) : List (String × α) :=
  clause.filterMap fun e ↦ e.values.head?.map fun value ↦ (e.name, f value)

theorem key_eq_ofList (clause : List Expression) : key clause = .ofList (given id clause) := by
  suffices h : ∀ m : Item, clause.foldl addKey m =
      (given id clause).foldl (fun m e ↦ m.insert e.1 e.2) m from h ∅
  induction clause with
  | nil => exact fun m ↦ rfl
  | cons e clause ih =>
    intro m
    rw [List.foldl_cons, ih, addKey, given, given, List.filterMap_cons]
    cases e.values <;> rfl

theorem updates_eq_ofList (clause : List Expression) :
    updates clause = .ofList (given .put clause) := by
  suffices h : ∀ m : NameMap AttributeUpdate, clause.foldl addUpdate m =
      (given .put clause).foldl (fun m e ↦ m.insert e.1 e.2) m from h ∅
  induction clause with
  | nil => exact fun m ↦ rfl
  | cons e clause ih =>
    intro m
    rw [List.foldl_cons, ih, addUpdate, given, given, List.filterMap_cons]
    cases e.values <;> rfl

theorem exists_of_mem_given {α : Type} {f : AttributeValue → α} {a : α}
    (h : (name, a) ∈ given f clause) : ∃ e ∈ clause, e.name = name ∧ ∃ v ∈ e.values, f v = a := by
  obtain ⟨e, he, hpair⟩ := List.mem_filterMap.mp h
  obtain ⟨value, hvalue, hpair⟩ := Option.map_eq_some_iff.mp hpair
  obtain ⟨rfl, rfl⟩ := Prod.mk.inj hpair
  exact ⟨e, he, rfl, value, List.mem_of_head? hvalue, rfl⟩

theorem given_ne_nil {α : Type} {f : AttributeValue → α} (hclause : clause ≠ [])
    (hvalues : ∀ e ∈ clause, e.values ≠ []) : given f clause ≠ [] := by
  obtain ⟨e, clause, rfl⟩ := List.exists_cons_of_ne_nil hclause
  obtain ⟨value, values, hvalue⟩ := List.exists_cons_of_ne_nil (hvalues e List.mem_cons_self)
  rw [given, List.filterMap_cons, hvalue]
  exact List.cons_ne_nil _ _

/-! ## Distinct attributes -/

/-- Where each attribute is named once, each expression is a condition. -/
theorem entries_conditions (h : (clause.map (·.name)).Nodup) :
    (conditions clause).entries = clause.map fun e ↦ (e.name, e.condition) := by
  induction clause using List.reverseRecOn with
  | nil => rfl
  | append_singleton clause e ih =>
    rw [List.map_append, List.nodup_append] at h
    obtain ⟨hclause, -, hdisjoint⟩ := h
    have hnew : e.name ∉ (conditions clause).names := by
      intro hmem
      exact hdisjoint _ (names_conditions_subset hmem) _ List.mem_cons_self rfl
    have hcontains : ¬ (conditions clause).contains e.name = true := by
      rw [NameMap.contains_eq, NameMap.get?_eq_none_iff.mpr hnew]
      exact Bool.false_ne_true
    rw [conditions_append, addCondition, if_neg hcontains, NameMap.entries_insert,
      Entries.put_of_notMem hnew, ih hclause, List.map_append]
    rfl

end ItemSql.Expression
