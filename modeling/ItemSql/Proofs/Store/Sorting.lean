import ItemSql.Proofs.Sort.Partition
import ItemSql.Store

/-!
# The arrangement of the items

A query sorts the items that it finds by their range key. What it compares may tie with everything
else, for want of a value or for having one of another type, and then the comparison need not be an
order of the items (`TotalOrder`). If it is one, the items are arranged. If not, more than twenty of
them may be too much for the sort, which breaks off (`Unsortable`). There is no other way for a
query to be left without an answer, and what is arranged is always just the items.
-/

namespace ItemSql.Table

variable {name : String} {t : Table} {q : Query} {x y : Item} {items arranged : List Item}
  {forward? : Option Bool}

/-! ## Total orders -/

/-- The comparison is transitive on the items. -/
def TransitiveOn (name : String) (items : List Item) : Prop :=
  ∀ x ∈ items, ∀ y ∈ items, ∀ z ∈ items, rank name x y ≠ .gt → rank name y z ≠ .gt →
    rank name x z ≠ .gt

/-- The comparison is a total order of the items up to ties. -/
structure TotalOrder (name : String) (items : List Item) : Prop where
  swap : ∀ x ∈ items, ∀ y ∈ items, rank name y x = (rank name x y).swap
  trans : TransitiveOn name items

/-- What is not less than another is not exceeded by it. -/
theorem TotalOrder.not_less_iff (h : TotalOrder name items) (hx : x ∈ items) (hy : y ∈ items) :
    decide (rank name x y = .lt) = false ↔ rank name y x ≠ .gt := by
  rw [decide_eq_false_iff_not, h.swap x hx y hy]
  cases rank name x y <;> simp

theorem TotalOrder.orders (h : TotalOrder name items) :
    Sort.Orders (fun x y ↦ rank name x y = .lt) items where
  asymm x hx y hy hless := by
    rw [decide_eq_true_iff] at hless
    rw [decide_eq_false_iff_not, h.swap x hx y hy, hless]
    nofun
  trans x hx y hy z hz hxy hyz := by
    rw [h.not_less_iff hx hy] at hxy
    rw [h.not_less_iff hy hz] at hyz
    rw [h.not_less_iff hx hz]
    exact h.trans z hz y hy x hx hyz hxy

/-! ## Arrangements -/

/-- The items may be too much for the sort: there are more than twenty of them, and they are not
ordered by the range key. -/
structure Unsortable (t : Table) (items : List Item) : Prop where
  many : 20 < items.length
  unordered : ∃ name, t.rangeKey? = some name ∧ ¬ TotalOrder name items

theorem sorted?_perm (h : t.sorted? items = some arranged) : arranged.Perm items := by
  rw [sorted?] at h
  split at h
  · exact (Sort.sorts_sort _).perm h
  · exact .of_eq (Option.some.inj h).symm

theorem unsortable_of_sorted?_eq_none (h : t.sorted? items = none) : t.Unsortable items := by
  rw [sorted?] at h
  split at h
  · rename_i name hname
    obtain ⟨hmany, hunordered⟩ := Sort.not_orders_of_sort_eq_none h
    exact ⟨hmany, name, hname, mt TotalOrder.orders hunordered⟩
  · cases h

/-- Whatever the order, an arrangement has each item once. -/
theorem arrange_perm (h : t.arrange forward? items = some arranged) : arranged.Perm items := by
  obtain ⟨ascending, hsorted, rfl⟩ := Option.map_eq_some_iff.mp h
  have hperm := sorted?_perm hsorted
  split
  · exact (List.reverse_perm ascending).trans hperm
  · exact hperm

theorem arrange_eq_none_iff : t.arrange forward? items = none ↔ t.sorted? items = none :=
  Option.map_eq_none_iff

/-- Forwards or backwards, the items are arranged from the least to the greatest. -/
theorem sorted?_of_arrange (h : t.arrange forward? items = some arranged) :
    t.sorted? items = some (if forward? = some false then arranged.reverse else arranged) := by
  obtain ⟨ascending, hsorted, rfl⟩ := Option.map_eq_some_iff.mp h
  split
  · rw [List.reverse_reverse, hsorted]
  · exact hsorted

/-! ## Queries -/

theorem query_eq_some_iff {o : QueryOutput} : t.query q = some o ↔
    ∃ arranged, t.arrange q.scanForward? (t.matching q.conditions) = some arranged ∧
      output q (t.matching q.conditions) arranged = o :=
  Option.map_eq_some_iff

/-- A query that has no answer finds items that are too much for the sort. -/
theorem unsortable_of_query_eq_none (h : t.query q = none) :
    t.Unsortable (t.matching q.conditions) :=
  unsortable_of_sorted?_eq_none (arrange_eq_none_iff.mp (Option.map_eq_none_iff.mp h))

/-- A query has an answer if it finds no more than twenty items. -/
theorem exists_query_of_length_le (h : (t.matching q.conditions).length ≤ 20) :
    ∃ o, t.query q = some o := by
  cases hquery : t.query q with
  | none => exact absurd h (Nat.not_le_of_lt (unsortable_of_query_eq_none hquery).many)
  | some o => exact ⟨o, rfl⟩

/-! ### Items that are too much for the sort -/

/-- Items in descending order, but every seventh of them has no range key and ties with all. -/
def crowd : Table :=
  ⟨[⟨"k", .hash⟩, ⟨"r", .range⟩],
    "utsrqponmlkjihgfedcba".toList.zipIdx.map fun (letter, i) ↦
      .ofList (("k", .string (String.singleton letter)) ::
        if i % 7 = 0 then [] else [("r", .string (String.singleton letter))])⟩

/-- A query for all items of the crowd. -/
def crowdQuery : Query :=
  ⟨"t", ["k", "r"], ∅, none, none⟩

theorem query_crowd : crowd.query crowdQuery = none := by
  have hnone : (crowd.query crowdQuery).isNone = true := by decide +kernel
  exact Option.isNone_iff_eq_none.mp hnone

end ItemSql.Table
