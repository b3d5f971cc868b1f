import ItemSql.Proofs.NameMap
import ItemSql.Proofs.Store.Sorting
import ItemSql.Proofs.Text.ByteOrder

/-!
# What a query is answered with

A query is answered in four steps: the items that meet the conditions are found, they are arranged,
the arrangement is cut at the limit, and what is left of each item is the attributes that are asked
for. `Table.Answered` says of each step what it leaves to the next one, so that nothing can be lost
or counted twice on the way: the arrangement has every item that is found, the number of items found
is that before the cut, and the number of items returned is that behind it.

In a table with a range key the arrangement is ascending where all items have a text for this key:
by the bytes of the texts, and in the order of the table among equal ones. Of other values the
comparison may leave pairs undecided, and nothing but the items themselves is said here. More than
twenty such items may be too much for the sort. That is the one way for a query to be left without
an answer, and it is one indeed (`not_exists_answered`).
-/

namespace ItemSql

/-! ## What a query asks for -/

namespace Query

variable {q : Query}

/-- The item meets every condition of the query. -/
def Asks (q : Query) (item : Item) : Prop :=
  ∀ name c, q.conditions.get? name = some c → c.satisfiedBy (item.get? name) = true

theorem asks_iff {item : Item} :
    q.Asks item ↔
      (q.conditions.entries.all fun (name, c) ↦ c.satisfiedBy (item.get? name)) = true := by
  rw [List.all_eq_true]
  constructor
  · rintro h ⟨name, c⟩ hc
    exact h name c (NameMap.mem_entries_iff.mp hc)
  · intro h name c hc
    exact h _ (NameMap.mem_entries_iff.mpr hc)

instance (q : Query) (item : Item) : Decidable (q.Asks item) :=
  decidable_of_iff _ asks_iff.symm

/-- The number of items to return of as many as are found. A negative limit leaves none. -/
def most (q : Query) (found : Nat) : Nat :=
  match q.limit? with
  | none => found
  | some n => if n < 0 then 0 else min n.toInt.toNat found

/-- What a query returns of an item: the attributes that it lists, all of them if it lists none, in
the order of the item. -/
def Returns (q : Query) (item image : Item) : Prop :=
  image.entries =
    item.entries.filter fun (name, _) ↦ q.attributesToGet = [] ∨ name ∈ q.attributesToGet

end Query

namespace Table

variable {t : Table} {q : Query} {name : String} {found : List Item}

/-! ## What it is answered with -/

/-- The items have texts for an attribute. -/
def Textual (name : String) (items : List Item) : Prop :=
  ∀ item ∈ items, ∃ text, item.get? name = some (.string text)

/-- The items are in ascending order by the bytes of a text, and those of one text are in the order
in which they were found. -/
structure Ascending (name : String) (found items : List Item) : Prop where
  pairwise : items.Pairwise fun x y ↦ ∀ a b, x.get? name = some (.string a) →
    y.get? name = some (.string b) → Text.utf8 a ≤ Text.utf8 b
  ties : ∀ text, items.filter (fun item ↦ item.get? name = some (.string text)) =
    found.filter fun item ↦ item.get? name = some (.string text)

/-- What a query is answered with: some of the items that are found, in an arrangement of all of
them. -/
structure Answered (t : Table) (q : Query) (found arranged : List Item) (o : QueryOutput) :
    Prop where
  found_eq : found = t.items.filter fun item ↦ q.Asks item
  perm : arranged.Perm found
  items : List.Forall₂ q.Returns (arranged.take (q.most found.length)) o.items
  /-- The number of items returned, as far as 64 bits go. -/
  count : o.count.toInt = min (o.items.length : Int) (2 ^ 63 - 1)
  /-- The number of items found, unless it is beyond 64 bits. -/
  scannedCount : o.scannedCount?.map Int64.toInt =
    if found.length < 2 ^ 63 then some (found.length : Int) else none
  /-- Backwards is the reverse of forwards. -/
  ascending : ∀ name, t.rangeKey? = some name → Textual name found →
    Ascending name found (if q.scanForward? = some false then arranged.reverse else arranged)
  stored : t.rangeKey? = none →
    (if q.scanForward? = some false then arranged.reverse else arranged) = found

/-! ## Numbers of items -/

theorem toInt64?_natCast (n : Nat) :
    Decimal.toInt64? n = if n < 2 ^ 63 then some (Int64.ofInt n) else none := by
  rw [Decimal.toInt64?, Int64.toInt_minValue, Int64.toInt_maxValue]
  refine if_congr ?_ rfl rfl
  omega

theorem toInt_ofInt_natCast {n : Nat} (h : n < 2 ^ 63) : (Int64.ofInt n).toInt = n :=
  Int64.toInt_ofInt_of_le (by omega) (by omega)

theorem map_toInt_toInt64? (n : Nat) : (Decimal.toInt64? n).map Int64.toInt =
    if n < 2 ^ 63 then some (n : Int) else none := by
  rw [toInt64?_natCast]
  split
  · rename_i h
    rw [Option.map_some, toInt_ofInt_natCast h]
  · rfl

theorem toInt_getD_toInt64? (n : Nat) :
    ((Decimal.toInt64? n).getD Int64.maxValue).toInt = min (n : Int) (2 ^ 63 - 1) := by
  rw [toInt64?_natCast]
  split
  · rename_i h
    rw [Option.getD_some, toInt_ofInt_natCast h]
    omega
  · rw [Option.getD_none, Int64.toInt_maxValue]
    omega

/-! ## The four steps -/

theorem matching_eq_filter (t : Table) (q : Query) :
    t.matching q.conditions = t.items.filter fun item ↦ q.Asks item := by
  refine List.filter_congr fun item _ ↦ ?_
  rw [← Bool.coe_iff_coe, decide_eq_true_iff, Query.asks_iff]

theorem cut_eq_take {items : List Item} (h : items.Perm found) :
    cut q.limit? items = items.take (q.most found.length) := by
  have hlength := h.length_eq
  cases hlimit : q.limit? with
  | none => rw [Query.most, hlimit, cut, ← hlength, List.take_length]
  | some n =>
    rw [Query.most, hlimit, cut]
    dsimp only
    have hneg : n < 0 ↔ n.toInt < 0 := Int32.lt_iff_toInt_lt
    rw [List.take_eq_take_iff]
    split
    · rename_i h
      rw [hneg] at h
      omega
    · omega

theorem returns_narrow (q : Query) (item : Item) :
    q.Returns item (narrow q.attributesToGet item) := by
  rw [Query.Returns, narrow]
  split
  · rename_i hempty
    rw [List.isEmpty_iff] at hempty
    simp [hempty]
  · rename_i hempty
    rw [List.isEmpty_iff] at hempty
    rw [NameMap.restrict, NameMap.entries_ofList_filter]
    simp [hempty]

theorem rank_eq_compare {x y : Item} {a b : String} (hx : x.get? name = some (.string a))
    (hy : y.get? name = some (.string b)) : rank name x y = compare a b := by
  rw [rank, hx, hy]
  rfl

/-- Texts are in order. -/
theorem Textual.totalOrder (h : Textual name found) : TotalOrder name found where
  swap x hx y hy := by
    obtain ⟨a, ha⟩ := h x hx
    obtain ⟨b, hb⟩ := h y hy
    rw [rank_eq_compare ha hb, rank_eq_compare hb ha]
    exact Std.OrientedOrd.eq_swap
  trans x hx y hy z hz hxy hyz := by
    obtain ⟨a, ha⟩ := h x hx
    obtain ⟨b, hb⟩ := h y hy
    obtain ⟨c, hc⟩ := h z hz
    rw [rank_eq_compare ha hb, Ne, compare_gt_iff_gt, not_lt] at hxy
    rw [rank_eq_compare hb hc, Ne, compare_gt_iff_gt, not_lt] at hyz
    rw [rank_eq_compare ha hc, Ne, compare_gt_iff_gt, not_lt]
    exact hxy.trans hyz

/-- Texts are sorted by their bytes. -/
theorem Textual.ascending {sorted : List Item} (h : Textual name found)
    (hsorted : Sort.sort (fun x y ↦ rank name x y = .lt) found = some sorted) :
    Ascending name found sorted := by
  have hresult := (Sort.sorts_sort _).sorted hsorted h.totalOrder.orders
  constructor
  · refine hresult.ascending.imp fun {x y} hless a b ha hb ↦ ?_
    rw [decide_eq_false_iff_not, rank_eq_compare hb ha, compare_lt_iff_lt, not_lt] at hless
    exact Text.utf8_le_iff.mpr hless
  · intro text
    refine hresult.ties _ fun x _ y _ hx hy ↦ ?_
    rw [decide_eq_true_iff] at hx hy
    rw [decide_eq_false_iff_not, rank_eq_compare hx hy, compare_lt_iff_lt]
    exact lt_irrefl text

theorem answered_of_query {o : QueryOutput} (h : t.query q = some o) :
    ∃ found arranged, t.Answered q found arranged o := by
  obtain ⟨arranged, harranged, rfl⟩ := query_eq_some_iff.mp h
  have hperm := arrange_perm harranged
  have hsorted := sorted?_of_arrange harranged
  refine ⟨t.matching q.conditions, arranged, t.matching_eq_filter q, hperm, ?_, ?_, ?_, ?_, ?_⟩
  · rw [← cut_eq_take hperm]
    exact List.forall₂_map_right_iff.mpr (List.forall₂_same.mpr fun item _ ↦ returns_narrow q item)
  · exact toInt_getD_toInt64? _
  · exact map_toInt_toInt64? _
  · intro name hname htextual
    rw [sorted?, hname] at hsorted
    exact htextual.ascending hsorted
  · intro hnone
    rw [sorted?, hnone] at hsorted
    exact (Option.some.inj hsorted).symm

/-- A query is answered with the items that are found, arranged, cut at the limit and reduced to the
attributes that it asks for, unless these items are too much for the sort. -/
theorem exists_answered (t : Table) (q : Query) :
    (∃ o found arranged, t.query q = some o ∧ t.Answered q found arranged o) ∨
      t.query q = none ∧ t.Unsortable (t.items.filter fun item ↦ q.Asks item) := by
  cases hquery : t.query q with
  | none =>
    have hitems := unsortable_of_query_eq_none hquery
    rw [matching_eq_filter] at hitems
    exact .inr ⟨rfl, hitems⟩
  | some o =>
    obtain ⟨found, arranged, hanswered⟩ := answered_of_query hquery
    exact .inl ⟨o, found, arranged, rfl, hanswered⟩

/-- A query has an answer if all items that it finds have texts for the range key. -/
theorem exists_query_of_textual
    (h : ∀ name, t.rangeKey? = some name → Textual name (t.matching q.conditions)) :
    ∃ o, t.query q = some o := by
  cases hquery : t.query q with
  | none =>
    obtain ⟨-, name, hname, hunordered⟩ := unsortable_of_query_eq_none hquery
    exact absurd (h name hname).totalOrder hunordered
  | some o => exact ⟨o, rfl⟩

/-- Not every query has an answer. -/
theorem not_exists_answered :
    ¬ ∀ (t : Table) (q : Query), ∃ o found arranged,
      t.query q = some o ∧ t.Answered q found arranged o := by
  intro h
  obtain ⟨o, -, -, ho, -⟩ := h crowd crowdQuery
  cases query_crowd.symm.trans ho

end Table

end ItemSql
