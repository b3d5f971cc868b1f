import ItemSql.Proofs.NameMap
import ItemSql.Proofs.Results
import ItemSql.Projection
import Mathlib.Data.List.Forall2
import Mathlib.Data.List.Induction
import Mathlib.Data.List.Nodup

/-!
# Columns and rows

Items have no schema, so a result whose columns are not listed has the names of its items for
columns: each name once, where it is first met. Going through the items is going through one list of
names, and taking each name at its first place only is a fold over that list. So the laws of columns
are laws of `distinct`, shown from the end of the list, where the fold is; what is left is to say
where in the items a place of that list is (`seenBefore_of_idxOf_lt`).

A row is built column by column. `realizeRow_eq_ok_iff` and `realizeRow_eq_error_iff` say once what
becomes of that: every cell is there, or some cell fails and none before it does. That no attribute
is lost then follows from the columns having all names, and that none shows twice from their having
no name twice (`projected`).
-/

namespace ItemSql

/-! ## Names at their first places -/

section Distinct

variable {name : String} {names : List String}

theorem distinct_concat (names : List String) (name : String) :
    distinct (names ++ [name]) =
      if name ∈ distinct names then distinct names else distinct names ++ [name] := by
  rw [distinct, List.foldl_append]
  rfl

theorem mem_distinct : name ∈ distinct names ↔ name ∈ names := by
  induction names using List.reverseRecOn with
  | nil => rfl
  | append_singleton names last ih =>
    rw [distinct_concat, List.mem_append, List.mem_singleton, ← ih]
    split
    · rename_i hseen
      exact ⟨.inl, fun h ↦ h.elim id fun hlast ↦ hlast ▸ hseen⟩
    · rw [List.mem_append, List.mem_singleton]

theorem nodup_distinct (names : List String) : (distinct names).Nodup := by
  induction names using List.reverseRecOn with
  | nil => exact .nil
  | append_singleton names last ih =>
    rw [distinct_concat]
    split
    · exact ih
    · rename_i hnew
      exact List.nodup_append.mpr ⟨ih, List.nodup_singleton last,
        fun a ha b hb hab ↦ hnew (List.mem_singleton.mp hb ▸ hab ▸ ha)⟩

/-- The names stand in the order of their first places. -/
theorem pairwise_distinct (names : List String) :
    (distinct names).Pairwise fun a b ↦ names.idxOf a < names.idxOf b := by
  induction names using List.reverseRecOn with
  | nil => exact .nil
  | append_singleton names last ih =>
    have hkept : (distinct names).Pairwise fun a b ↦
        (names ++ [last]).idxOf a < (names ++ [last]).idxOf b := by
      refine ih.imp_of_mem fun ha hb h ↦ ?_
      rwa [List.idxOf_append_of_mem (mem_distinct.mp ha),
        List.idxOf_append_of_mem (mem_distinct.mp hb)]
    rw [distinct_concat]
    split
    · exact hkept
    · rename_i hnew
      rw [mem_distinct] at hnew
      refine List.pairwise_append.mpr ⟨hkept, List.pairwise_singleton _ _, fun a ha b hb ↦ ?_⟩
      have hmem := mem_distinct.mp ha
      rw [List.mem_singleton.mp hb, List.idxOf_append_of_mem hmem,
        List.idxOf_append_of_notMem hnew]
      exact Nat.lt_add_right _ (List.idxOf_lt_length_of_mem hmem)

end Distinct

/-- Going through the items in order, and through the names of each in order, `a` is met before
`b`. -/
inductive SeenBefore (a b : String) : List Item → Prop
  /-- The first item has `a`, and does not have `b` or has it behind `a`. -/
  | here {item : Item} (items : List Item) (h : item.names.idxOf a < item.names.idxOf b) :
      SeenBefore a b (item :: items)
  /-- The first item has neither. -/
  | later {item : Item} {items : List Item} (ha : a ∉ item.names) (hb : b ∉ item.names)
      (h : SeenBefore a b items) : SeenBefore a b (item :: items)

theorem seenBefore_of_idxOf_lt {a b : String} {items : List Item}
    (h : (items.flatMap NameMap.names).idxOf a < (items.flatMap NameMap.names).idxOf b) :
    SeenBefore a b items := by
  induction items with
  | nil => exact absurd h (Nat.lt_irrefl 0)
  | cons item items ih =>
    rw [List.flatMap_cons, List.idxOf_append, List.idxOf_append] at h
    split at h <;> rename_i ha <;> split at h <;> rename_i hb
    · exact .here items h
    · refine .here items ?_
      rw [List.idxOf_eq_length hb]
      exact List.idxOf_lt_length_of_mem ha
    · -- `b` is met in this item and `a` behind it.
      have hlt := List.idxOf_lt_length_of_mem hb
      omega
    · exact .later ha hb (ih (Nat.lt_of_add_lt_add_right h))

/-! ## Rows -/

section Rows

variable {columns : List String} {item : Item} {policy : NumberPolicy}

theorem realizeRow_cons (column : String) (columns : List String) (item : Item)
    (policy : NumberPolicy) :
    realizeRow (column :: columns) item policy = do
      let cell ← realize (item.get? column) column policy
      let cells ← realizeRow columns item policy
      return cell :: cells := by
  rw [realizeRow, List.mapM_cons]
  rfl

/-- A row has the cell of each column in its place. -/
theorem realizeRow_eq_ok_iff {row : List Cell} :
    realizeRow columns item policy = .ok row ↔
      List.Forall₂ (fun column cell ↦ realize (item.get? column) column policy = .ok cell)
        columns row :=
  mapM_eq_ok_iff

/-- A row fails at its first cell that does. -/
theorem realizeRow_eq_error_iff {e : RowError} :
    realizeRow columns item policy = .error e ↔
      ∃ before column after, columns = before ++ column :: after ∧
        (∀ c ∈ before, ∃ cell, realize (item.get? c) c policy = .ok cell) ∧
        realize (item.get? column) column policy = .error e := by
  induction columns with
  | nil => exact iff_of_false nofun (by rintro ⟨before, column, after, h, -⟩; simp at h)
  | cons first columns ih =>
    rw [realizeRow_cons]
    constructor
    · intro h
      cases hfirst : realize (item.get? first) first policy with
      | error e' =>
        rw [hfirst] at h
        obtain rfl := Except.error.inj h
        exact ⟨[], first, columns, rfl, nofun, hfirst⟩
      | ok cell =>
        rw [hfirst] at h
        cases hrest : realizeRow columns item policy with
        | ok cells =>
          rw [hrest] at h
          cases h
        | error e' =>
          rw [hrest] at h
          obtain rfl := Except.error.inj h
          obtain ⟨before, column, after, rfl, hbefore, hcolumn⟩ := ih.mp hrest
          exact ⟨first :: before, column, after, rfl,
            List.forall_mem_cons.mpr ⟨⟨cell, hfirst⟩, hbefore⟩, hcolumn⟩
    · rintro ⟨_ | ⟨_, before⟩, column, after, hcolumns, hbefore, hcolumn⟩
      · obtain ⟨rfl, -⟩ := List.cons.inj hcolumns
        rw [hcolumn]
        rfl
      · obtain ⟨rfl, rfl⟩ := List.cons.inj hcolumns
        obtain ⟨⟨cell, hcell⟩, hbefore⟩ := List.forall_mem_cons.mp hbefore
        rw [hcell, ih.mpr ⟨before, column, after, rfl, hbefore, hcolumn⟩]
        rfl

/-- A row has a cell for each column. -/
theorem length_of_realizeRow_eq_ok {row : List Cell}
    (h : realizeRow columns item policy = .ok row) : row.length = columns.length :=
  (realizeRow_eq_ok_iff.mp h).length_eq.symm

theorem exists_cell_of_realizeRow {row : List Cell} (h : realizeRow columns item policy = .ok row)
    {i : Nat} {column : String} (hcolumn : columns[i]? = some column) :
    ∃ cell, row[i]? = some cell ∧ realize (item.get? column) column policy = .ok cell := by
  obtain ⟨hi, rfl⟩ := List.getElem?_eq_some_iff.mp hcolumn
  have hrow : i < row.length := length_of_realizeRow_eq_ok h ▸ hi
  exact ⟨row[i], List.getElem?_eq_getElem hrow,
    (List.forall₂_iff_get.mp (realizeRow_eq_ok_iff.mp h)).2 i hi hrow⟩

/-- A cell fails under the strict policy, for a number that is not read as an integer. -/
theorem realize_eq_error_iff {value? : Option AttributeValue} {column : String} {e : RowError} :
    realize value? column policy = .error e ↔
      policy = .strict ∧ ∃ text, value? = some (.number text) ∧ Text.trim text ≠ "" ∧
        Decimal.int64? (Text.trim text) = none ∧ e = .invalidNumber column text := by
  match value? with
  | none | some .null => exact iff_of_false nofun (by rintro ⟨-, text, ⟨⟩, -⟩)
  | some (.string content) =>
    refine iff_of_false (fun h ↦ ?_) (by rintro ⟨-, text, ⟨⟩, -⟩)
    rw [realize] at h
    split at h <;> cases h
  | some (.number text) =>
    rw [realize, realizeNumber.eq_def]
    dsimp only
    split
    · rename_i hblank
      exact iff_of_false nofun (by rintro ⟨-, _, ⟨⟩, hne, -⟩; exact hne hblank)
    · rename_i hne
      cases hread : Decimal.int64? (Text.trim text) with
      | some n =>
        refine iff_of_false nofun ?_
        rintro ⟨-, _, ⟨⟩, -, hnone, -⟩
        cases hread.symm.trans hnone
      | none =>
        cases policy with
        | lenient => exact iff_of_false nofun (by rintro ⟨⟨⟩, -⟩)
        | strict =>
          constructor
          · intro h
            exact ⟨rfl, text, rfl, hne, hread, (Except.error.inj h).symm⟩
          · rintro ⟨-, _, ⟨⟩, -, -, rfl⟩
            rfl

/-- A row fails for a number only. -/
theorem realizeRow_error {e : RowError} (h : realizeRow columns item policy = .error e) :
    ∃ column text, e = .invalidNumber column text := by
  obtain ⟨-, column, -, -, -, hcell⟩ := realizeRow_eq_error_iff.mp h
  obtain ⟨-, text, -, -, -, he⟩ := realize_eq_error_iff.mp hcell
  exact ⟨column, text, he⟩

end Rows

/-! ## Nothing lost, nothing made up -/

/-- The columns of items where none are listed. -/
structure Resolved (items : List Item) (columns : List String) : Prop where
  nodup : columns.Nodup
  mem_iff (name : String) : name ∈ columns ↔ ∃ item ∈ items, name ∈ item.names
  ordered : columns.Pairwise fun a b ↦ SeenBefore a b items

/-- The row has one cell for each column: that of the item's attribute of this name, and an empty
one where the item has none. -/
structure RowOf (columns : List String) (item : Item) (policy : NumberPolicy) (row : List Cell) :
    Prop where
  length : row.length = columns.length
  cell ⦃i : Nat⦄ ⦃column : String⦄ : columns[i]? = some column →
    ∃ cell, row[i]? = some cell ∧ realize (item.get? column) column policy = .ok cell
  absent ⦃i : Nat⦄ ⦃column : String⦄ : columns[i]? = some column → column ∉ item.names →
    row[i]? = some .null

/-- Items as the rows of a result. -/
structure Projected (items : List Item) : Prop where
  resolved : Resolved items (resolveColumns items none)
  listed (columns : List String) : resolveColumns items (some columns) = columns
  row (columns : List String) (item : Item) (policy : NumberPolicy) (row : List Cell) :
    realizeRow columns item policy = .ok row → RowOf columns item policy row
  /-- Every attribute shows in one cell of its row and in no other. -/
  shown : ∀ item ∈ items, ∀ (policy : NumberPolicy) (row : List Cell),
    realizeRow (resolveColumns items none) item policy = .ok row → ∀ e ∈ item.entries,
      ∃ i : Nat, (∀ j : Nat, (resolveColumns items none)[j]? = some e.1 ↔ j = i) ∧
        ∃ cell, row[i]? = some cell ∧ realize (some e.2) e.1 policy = .ok cell
  /-- The values of the attributes have no part in the columns. -/
  names (items' : List Item) : items.map NameMap.names = items'.map NameMap.names →
    ∀ explicit?, resolveColumns items explicit? = resolveColumns items' explicit?

theorem resolved_resolveColumns (items : List Item) :
    Resolved items (resolveColumns items none) where
  nodup := nodup_distinct _
  mem_iff _ := mem_distinct.trans List.mem_flatMap
  ordered := (pairwise_distinct _).imp seenBefore_of_idxOf_lt

theorem rowOf_of_realizeRow {columns : List String} {item : Item} {policy : NumberPolicy}
    {row : List Cell} (h : realizeRow columns item policy = .ok row) :
    RowOf columns item policy row where
  length := length_of_realizeRow_eq_ok h
  cell _ _ hcolumn := exists_cell_of_realizeRow h hcolumn
  absent i column hcolumn hname := by
    obtain ⟨cell, hcell, hrealize⟩ := exists_cell_of_realizeRow h hcolumn
    rw [NameMap.get?_eq_none_iff.mpr hname] at hrealize
    rw [hcell, ← Except.ok.inj hrealize]

/-- The columns are the names of the items, each at its first place, and a row has the attributes of
its item under their names and nothing else. -/
theorem projected (items : List Item) : Projected items where
  resolved := resolved_resolveColumns items
  listed _ := rfl
  row _ _ _ _ := rowOf_of_realizeRow
  shown := by
    rintro item hitem policy row hrow ⟨name, value⟩ hentry
    have hresolved := resolved_resolveColumns items
    have hname : name ∈ resolveColumns items none :=
      (hresolved.mem_iff name).mpr ⟨item, hitem, List.mem_map.mpr ⟨_, hentry, rfl⟩⟩
    obtain ⟨i, hi⟩ := List.mem_iff_getElem?.mp hname
    obtain ⟨cell, hcell, hrealize⟩ := exists_cell_of_realizeRow hrow hi
    rw [NameMap.get?_of_mem hentry] at hrealize
    refine ⟨i, fun j ↦ ⟨fun hj ↦ ?_, by rintro rfl; exact hi⟩, cell, hcell, hrealize⟩
    exact (List.getElem?_inj (List.getElem?_eq_some_iff.mp hj).1 hresolved.nodup).mp
      (hj.trans hi.symm)
  names items' hnames explicit? := by
    have hflat : items.flatMap NameMap.names = items'.flatMap NameMap.names := by
      rw [List.flatMap_def, List.flatMap_def, hnames]
    cases explicit? with
    | some columns => rfl
    | none => exact congrArg distinct hflat

/-- Two items that share a name, and one that has no name in common with them. -/
example : resolveColumns [.ofList [("b", .number "1"), ("a", .null)],
    .ofList [("a", .string "x"), ("c", .number "2")], .ofList [("d", .null)]] none =
      ["b", "a", "c", "d"] := by
  decide +kernel

end ItemSql
