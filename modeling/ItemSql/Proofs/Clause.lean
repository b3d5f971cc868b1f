import ItemSql.Proofs.Condition
import ItemSql.Proofs.NameMap.Pairs

/-!
# Clauses attribute by attribute

A clause is folded into conditions, into a key or into updates. The three folds agree on the
attributes: each stands where it is named first, whatever is done to it later. They differ in what
becomes of an attribute that is named again: conditions gather its values and take its last
operator, keys and updates take the value of its last expression.

Either is a function of the expressions about the attribute alone, `gathered` or `latest`, so what
stands between them does not matter (`accumulated`).
-/

namespace ItemSql.Expression

variable {α : Type} {clause : List Expression} {name : String}

/-- The condition of expressions about one attribute. -/
def gathered (es : List Expression) : Option Condition :=
  es.getLast?.map fun last ↦ ⟨last.operator, es.flatMap (·.values)⟩

/-- The value of expressions about one attribute. -/
def latest (es : List Expression) : Option AttributeValue :=
  es.getLast?.bind fun last ↦ last.values.head?

/-- The fold of a clause has an entry for each attribute, found in the expressions about it. -/
structure Accumulates (fold : List Expression → NameMap α) (entry : List Expression → Option α)
    (clause : List Expression) : Prop where
  nodup : (fold clause).names.Nodup
  mem_iff (name : String) : name ∈ (fold clause).names ↔ ∃ e ∈ clause, e.name = name
  /-- The attributes stand in the order in which they are named first. -/
  ordered : (fold clause).names.Pairwise fun a b ↦
    (clause.map (·.name)).idxOf a < (clause.map (·.name)).idxOf b
  get? (name : String) : (fold clause).get? name = entry (about name clause)
  /-- An expression leaves the entries of all other attributes alone. -/
  apart {before after : List Expression} {e : Expression} {name : String}
    (h : clause = before ++ e :: after) (hname : name ≠ e.name) :
    (fold clause).get? name = (fold (before ++ after)).get? name

/-! ## The attributes -/

theorem names_conditions (clause : List Expression) :
    (conditions clause).names = distinct (clause.map (·.name)) := by
  induction clause using List.reverseRecOn with
  | nil => rfl
  | append_singleton clause e ih =>
    have hcontains : (conditions clause).contains e.name = true ↔
        e.name ∈ distinct (clause.map (·.name)) := by
      rw [NameMap.contains_eq, ← ih, Option.isSome_iff_ne_none, ne_eq, NameMap.get?_eq_none_iff,
        Classical.not_not]
    rw [conditions_append, addCondition, List.map_append, List.map_singleton, distinct_concat]
    by_cases h : e.name ∈ distinct (clause.map (·.name))
    · rw [if_pos (hcontains.mpr h), if_pos h, NameMap.names_alter, ih]
    · rw [if_neg (mt hcontains.mp h), if_neg h, NameMap.names_insert, ih, if_neg h]

theorem given_concat {f : AttributeValue → α} {e : Expression} {value : AttributeValue}
    (hvalue : e.values.head? = some value) :
    given f (clause ++ [e]) = given f clause ++ [(e.name, f value)] := by
  rw [given, List.filterMap_append, ← given, List.filterMap_cons, hvalue]
  rfl

theorem exists_head?_eq {e : Expression} (h : e.values ≠ []) :
    ∃ value, e.values.head? = some value :=
  Option.isSome_iff_exists.mp (List.isSome_head?.mpr h)

theorem names_given (f : AttributeValue → α) (h : ∀ e ∈ clause, e.values ≠ []) :
    (given f clause).map Prod.fst = clause.map (·.name) := by
  induction clause using List.reverseRecOn with
  | nil => rfl
  | append_singleton clause e ih =>
    obtain ⟨hclause, he⟩ := List.forall_mem_append.mp h
    obtain ⟨value, hvalue⟩ := exists_head?_eq (he e (List.mem_singleton_self e))
    rw [given_concat hvalue, List.map_append, List.map_append, ih hclause]
    rfl

/-! ## One attribute -/

theorem latest_concat {es : List Expression} {e : Expression} :
    latest (es ++ [e]) = e.values.head? := by
  rw [latest, List.getLast?_concat]
  rfl

theorem get?_ofList_given (f : AttributeValue → α) (h : ∀ e ∈ clause, e.values ≠ [])
    (name : String) :
    (NameMap.ofList (given f clause)).get? name = (latest (about name clause)).map f := by
  -- From the end of the clause, where the latest expression is.
  induction clause using List.reverseRecOn with
  | nil => rfl
  | append_singleton clause e ih =>
    obtain ⟨hclause, he⟩ := List.forall_mem_append.mp h
    obtain ⟨value, hvalue⟩ := exists_head?_eq (he e (List.mem_singleton_self e))
    rw [given_concat hvalue, NameMap.ofList_concat, about_concat]
    by_cases hname : name = e.name
    · subst hname
      rw [if_pos rfl, NameMap.get?_insert_self, latest_concat, hvalue]
      rfl
    · rw [if_neg hname, NameMap.get?_insert_of_ne hname, ih hclause]

theorem given_eq_map (f : AttributeValue → α) (clause : List Expression) :
    given f clause = (given id clause).map (Prod.map id f) := by
  rw [given, given, List.map_filterMap]
  refine List.filterMap_congr fun e _ ↦ ?_
  cases e.values <;> rfl

theorem about_append_cons {before after : List Expression} {e : Expression}
    (h : name ≠ e.name) : about name (before ++ e :: after) = about name (before ++ after) := by
  rw [about, about, List.filter_append, List.filter_append,
    List.filter_cons, if_neg (by simpa using h.symm)]

/-! ## The folds -/

theorem accumulates {fold : List Expression → NameMap α} {entry : List Expression → Option α}
    (hnames : ∀ clause, (∀ e ∈ clause, e.values ≠ []) →
      (fold clause).names = distinct (clause.map (·.name)))
    (hget : ∀ clause, (∀ e ∈ clause, e.values ≠ []) → ∀ name,
      (fold clause).get? name = entry (about name clause))
    (h : ∀ e ∈ clause, e.values ≠ []) : Accumulates fold entry clause where
  nodup := (fold clause).nodup_names
  mem_iff name := by rw [hnames clause h, mem_distinct, List.mem_map]
  ordered := hnames clause h ▸ pairwise_distinct _
  get? := hget clause h
  apart := by
    rintro before after e name rfl hname
    have hothers : ∀ e ∈ before ++ after, e.values ≠ [] := fun e he ↦ h e <|
      (List.mem_append.mp he).elim (List.mem_append_left _) fun he ↦
        List.mem_append_right _ (.tail _ he)
    rw [hget _ h, hget _ hothers, about_append_cons hname]

/-- Conditions gather, keys and updates take the latest value, and all of them keep the order in
which the attributes are named first. -/
theorem accumulated (h : ∀ e ∈ clause, e.values ≠ []) :
    Accumulates conditions gathered clause ∧ Accumulates key latest clause ∧
      Accumulates updates (fun es ↦ (latest es).map .put) clause ∧
      (updates clause).entries =
        (key clause).entries.map fun (name, value) ↦ (name, AttributeUpdate.put value) := by
  refine ⟨?_, ?_, ?_, ?_⟩
  · exact accumulates (fun clause _ ↦ names_conditions clause)
      (fun clause _ ↦ get?_conditions clause) h
  · refine accumulates (fun clause h ↦ ?_) (fun clause h name ↦ ?_) h
    · rw [key_eq_ofList, NameMap.names_ofList, names_given id h]
    · rw [key_eq_ofList, get?_ofList_given id h, Option.map_id_fun]
      rfl
  · refine accumulates (fun clause h ↦ ?_) (fun clause h name ↦ ?_) h
    · rw [updates_eq_ofList, NameMap.names_ofList, names_given _ h]
    · rw [updates_eq_ofList, get?_ofList_given _ h]
  · rw [updates_eq_ofList, key_eq_ofList, given_eq_map, NameMap.entries_ofList_map]
    rfl

/-- A clause that comes back to its first attribute behind another one. -/
def returningClause : List Expression :=
  [⟨"b", .eq, [.string "x"]⟩, ⟨"a", .le, [.number "1"]⟩,
    ⟨"b", .between, [.number "2", .number "3"]⟩]

theorem accumulated_returningClause :
    (∀ e ∈ returningClause, e.values ≠ []) ∧
      (conditions returningClause).get? "b" =
        some ⟨.between, [.string "x", .number "2", .number "3"]⟩ ∧
      (key returningClause).get? "b" = some (.number "2") ∧
      (updates returningClause).get? "b" = some (.put (.number "2")) ∧
      (conditions returningClause).get? "a" = some ⟨.le, [.number "1"]⟩ := by
  have h : ∀ e ∈ returningClause, e.values ≠ [] := by decide
  obtain ⟨hconditions, hkey, hupdates, -⟩ := accumulated h
  exact ⟨h, hconditions.get? "b", hkey.get? "b", hupdates.get? "b", hconditions.get? "a"⟩

end ItemSql.Expression
