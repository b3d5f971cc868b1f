import ItemSql.Proofs.Decimal.Order
import ItemSql.Proofs.Store.Selection
import ItemSql.Proofs.Store.StoredValues

/-!
# The comparison behind the arrangement

A query arranges items by comparing them by the range key. Two strings are compared, and so are two
numbers. Items that cannot be compared count as equal: one of them has no value, or the values are
of different types. An item may therefore tie with two others that do not tie with each other, so
the comparison is not transitive, and the sort may leave those two in the wrong order
(`run_mixedScript_not_transitive`) or break off (`Table.query_crowd`).

The sort needs a total order up to ties. In a store that is filled by statements the comparison is
one exactly where there is no such item: no two items are told apart, or all of them have values of
one type and every two can be compared (`totalOrder_run_iff`).
-/

namespace ItemSql

/-! ## Values -/

namespace AttributeValue

variable {a b c : AttributeValue} {o o' : Ordering}

/-- Where the text of a number stands among numbers. -/
def place (text : String) : ℤ ×ₗ ℤ ×ₗ ℤ :=
  Decimal.placeOf ((Decimal.double? text).getD 0)

/-- Numerals are compared by their places. -/
theorem compare?_number {x y : String} (hx : Decimal.Numeral x.toList)
    (hy : Decimal.Numeral y.toList) :
    compare? (.number x) (.number y) = some (compare (place x) (place y)) := by
  obtain ⟨x', hreadx, hnumberx⟩ := hx.exists_number
  obtain ⟨y', hready, hnumbery⟩ := hy.exists_number
  rw [compare?, place, place, hreadx, hready]
  exact Decimal.compare?_eq_compare_place hnumberx hnumbery

theorem Written.compare?_swap (ha : a.Written) (hb : b.Written) :
    b.compare? a = (a.compare? b).map .swap := by
  cases ha with
  | string x =>
    cases hb with
    | string y => exact congrArg some Std.OrientedOrd.eq_swap
    | number => rfl
  | number hx =>
    cases hb with
    | string => rfl
    | number hy =>
      rw [compare?_number hx hy, compare?_number hy hx]
      exact congrArg some Std.OrientedOrd.eq_swap

/-- Among written values it is transitive to be comparable, and also not to be greater. -/
theorem Written.compare?_trans (ha : a.Written) (hb : b.Written) (hc : c.Written)
    (hab : a.compare? b = some o) (hbc : b.compare? c = some o') :
    ∃ o'', a.compare? c = some o'' ∧ (o ≠ .gt → o' ≠ .gt → o'' ≠ .gt) := by
  have htrans {β : Type} [LinearOrder β] {x y z : β} (hxy : compare x y ≠ .gt)
      (hyz : compare y z ≠ .gt) : compare x z ≠ .gt :=
    compare_le_iff_le.mpr ((compare_le_iff_le.mp hxy).trans (compare_le_iff_le.mp hyz))
  -- The value in the middle tells the type of the other two.
  cases hb with
  | string y =>
    cases ha with
    | number => cases hab
    | string x =>
      cases hc with
      | number => cases hbc
      | string z =>
        obtain rfl := Option.some.inj hab
        obtain rfl := Option.some.inj hbc
        exact ⟨_, rfl, htrans⟩
  | number hy =>
    cases ha with
    | string => cases hab
    | number hx =>
      cases hc with
      | string => cases hbc
      | number hz =>
        rw [compare?_number hx hy] at hab
        rw [compare?_number hy hz] at hbc
        obtain rfl := Option.some.inj hab
        obtain rfl := Option.some.inj hbc
        exact ⟨_, compare?_number hx hz, htrans⟩

end AttributeValue

/-! ## Items -/

namespace Table

variable {name : String} {x y z : Item} {items : List Item} {o o' : Ordering}

/-- The order of two items by an attribute, if they can be compared. -/
def rank? (name : String) (x y : Item) : Option Ordering := do
  (← x.get? name).compare? (← y.get? name)

theorem rank_eq_getD (name : String) (x y : Item) : rank name x y = (rank? name x y).getD .eq := by
  rw [rank, rank?]
  cases x.get? name with
  | none => rfl
  | some a => cases y.get? name <;> rfl

theorem rank?_eq_some_iff : rank? name x y = some o ↔
    ∃ a b, x.get? name = some a ∧ y.get? name = some b ∧ a.compare? b = some o := by
  rw [rank?]
  simp [Option.bind_eq_some_iff]

theorem rank?_swap (hx : x.Written) (hy : y.Written) :
    rank? name y x = (rank? name x y).map .swap := by
  rw [rank?, rank?]
  cases ha : x.get? name with
  | none => cases y.get? name <;> rfl
  | some a =>
    cases hb : y.get? name with
    | none => rfl
    | some b => exact (hx name a ha).compare?_swap (hy name b hb)

theorem rank_swap (hx : x.Written) (hy : y.Written) :
    rank name y x = (rank name x y).swap := by
  rw [rank_eq_getD, rank_eq_getD, rank?_swap hx hy]
  cases rank? name x y <;> rfl

theorem rank?_trans (hx : x.Written) (hy : y.Written) (hz : z.Written)
    (hxy : rank? name x y = some o) (hyz : rank? name y z = some o') :
    ∃ o'', rank? name x z = some o'' ∧ (o ≠ .gt → o' ≠ .gt → o'' ≠ .gt) := by
  obtain ⟨a, b, ha, hb, hab⟩ := rank?_eq_some_iff.mp hxy
  obtain ⟨b', c, hb', hc, hbc⟩ := rank?_eq_some_iff.mp hyz
  obtain rfl := Option.some.inj (hb.symm.trans hb')
  obtain ⟨o'', hac, ho⟩ := (hx name a ha).compare?_trans (hy name b hb) (hz name c hc) hab hbc
  exact ⟨o'', rank?_eq_some_iff.mpr ⟨a, c, ha, hc, hac⟩, ho⟩

theorem isSome_rank?_comm (hx : x.Written) (hy : y.Written) :
    (rank? name y x).isSome = (rank? name x y).isSome := by
  rw [rank?_swap hx hy, Option.isSome_map]

theorem isSome_rank?_trans (hx : x.Written) (hy : y.Written) (hz : z.Written)
    (hxy : (rank? name x y).isSome = true) (hyz : (rank? name y z).isSome = true) :
    (rank? name x z).isSome = true := by
  obtain ⟨o, ho⟩ := Option.isSome_iff_exists.mp hxy
  obtain ⟨o', ho'⟩ := Option.isSome_iff_exists.mp hyz
  obtain ⟨o'', ho'', -⟩ := rank?_trans hx hy hz ho ho'
  rw [ho'']
  rfl

theorem rank_eq_of_not_isSome (h : ¬ (rank? name x y).isSome = true) : rank name x y = .eq := by
  rw [rank_eq_getD, Option.not_isSome_iff_eq_none.mp h]
  rfl

/-! ## Total orders -/

/-- No two items are told apart, or every two can be compared. -/
def Uniform (name : String) (items : List Item) : Prop :=
  (∀ x ∈ items, ∀ y ∈ items, rank name x y = .eq) ∨
    ∀ x ∈ items, ∀ y ∈ items, (rank? name x y).isSome = true

/-- Where two items are told apart, nothing may tie with both for being of another type. -/
theorem TransitiveOn.isSome_rank? (htrans : TransitiveOn name items)
    (h : ∀ x ∈ items, x.Written) (hx : x ∈ items) (hy : y ∈ items) (hgt : rank name x y = .gt)
    (hz : z ∈ items) : (rank? name x z).isSome = true := by
  have hxy : (rank? name x y).isSome = true := by
    by_contra hnone
    cases hgt.symm.trans (rank_eq_of_not_isSome hnone)
  by_contra hxz
  have hzy : ¬ (rank? name z y).isSome = true := by
    intro hzy
    rw [← isSome_rank?_comm (h z hz) (h y hy)] at hzy
    exact hxz (isSome_rank?_trans (h x hx) (h y hy) (h z hz) hxy hzy)
  -- So the third item ties with both, and transitivity would make them tie too.
  refine htrans x hx z hz y hy ?_ ?_ hgt
  · rw [rank_eq_of_not_isSome hxz]
    nofun
  · rw [rank_eq_of_not_isSome hzy]
    nofun

/-- Of two items that are told apart one is the greater. -/
theorem exists_rank_gt (h : ∀ x ∈ items, x.Written)
    (hne : ¬ ∀ x ∈ items, ∀ y ∈ items, rank name x y = .eq) :
    ∃ x ∈ items, ∃ y ∈ items, rank name x y = .gt := by
  push Not at hne
  obtain ⟨x, hx, y, hy, hne⟩ := hne
  cases hrank : rank name x y with
  | eq => exact absurd hrank hne
  | gt => exact ⟨x, hx, y, hy, hrank⟩
  | lt =>
    refine ⟨y, hy, x, hx, ?_⟩
    rw [rank_swap (h x hx) (h y hy), hrank]
    rfl

theorem TransitiveOn.uniform (htrans : TransitiveOn name items) (h : ∀ x ∈ items, x.Written) :
    Uniform name items := by
  by_cases htied : ∀ x ∈ items, ∀ y ∈ items, rank name x y = .eq
  · exact .inl htied
  · obtain ⟨x, hx, y, hy, hgt⟩ := exists_rank_gt h htied
    have hwith {z : Item} (hz : z ∈ items) := htrans.isSome_rank? h hx hy hgt hz
    refine .inr fun u hu v hv ↦ isSome_rank?_trans (h u hu) (h x hx) (h v hv) ?_ (hwith hv)
    rw [isSome_rank?_comm (h x hx) (h u hu)]
    exact hwith hu

theorem Uniform.transitiveOn (huniform : Uniform name items) (h : ∀ x ∈ items, x.Written) :
    TransitiveOn name items := by
  intro x hx y hy z hz hxy hyz
  rcases huniform with htied | hall
  · rw [htied x hx z hz]
    nofun
  · obtain ⟨o, ho⟩ := Option.isSome_iff_exists.mp (hall x hx y hy)
    obtain ⟨o', ho'⟩ := Option.isSome_iff_exists.mp (hall y hy z hz)
    obtain ⟨o'', ho'', hle⟩ := rank?_trans (h x hx) (h y hy) (h z hz) ho ho'
    rw [rank_eq_getD, ho] at hxy
    rw [rank_eq_getD, ho'] at hyz
    rw [rank_eq_getD, ho'']
    exact hle hxy hyz

/-- The comparison of items that are written is a total order exactly if they are uniform. -/
theorem totalOrder_iff_uniform (h : ∀ x ∈ items, x.Written) :
    TotalOrder name items ↔ Uniform name items := by
  constructor
  · exact fun horder ↦ horder.trans.uniform h
  · exact fun huniform ↦
      ⟨fun x hx y hy ↦ rank_swap (h x hx) (h y hy), huniform.transitiveOn h⟩

/-! ## The sort -/

variable {t : Table} {q : Query}

theorem cut_sublist (limit? : Option Int32) (items : List Item) :
    (cut limit? items).Sublist items := by
  cases limit? with
  | none => exact .refl items
  | some n => exact List.take_sublist _ _

theorem rank_narrow {names : List String} (h : names = [] ∨ name ∈ names) (x y : Item) :
    rank name (narrow names x) (narrow names y) = rank name x y := by
  have hget : ∀ item : Item, (narrow names item).get? name = item.get? name := by
    intro item
    rcases h with rfl | hname
    · rfl
    · exact get?_narrow hname item
  rw [rank, rank, hget, hget]

/-- Items whose comparison is a total order are sorted by it. -/
theorem TotalOrder.exists_sorted? (h : TotalOrder name items) (hname : t.rangeKey? = some name) :
    ∃ ascending, t.sorted? items = some ascending ∧
      ascending.Pairwise fun x y ↦ rank name x y ≠ .gt := by
  obtain ⟨ascending, hsort, hsorted⟩ := (Sort.sorts_sort _).exists_sorted h.orders
  refine ⟨ascending, ?_, hsorted.ascending.imp_of_mem fun {x y} hx hy hless ↦ ?_⟩
  · rw [sorted?, hname]
    exact hsort
  · have hmem {z : Item} (hz : z ∈ ascending) : z ∈ items := hsorted.perm.mem_iff.mp hz
    exact (h.not_less_iff (hmem hy) (hmem hx)).mp hless

/-- If the comparison is a total order of what a query finds, the query is answered. With the range
key, the answer is in ascending order, if it is read forwards. -/
theorem TotalOrder.exists_query (h : TotalOrder name (t.matching q.conditions))
    (hname : t.rangeKey? = some name)
    (hasked : q.attributesToGet = [] ∨ name ∈ q.attributesToGet) :
    ∃ o, t.query q = some o ∧
      (if q.scanForward? = some false then o.items.reverse else o.items).Pairwise
        fun x y ↦ rank name x y ≠ .gt := by
  obtain ⟨ascending, hsorted, hpairwise⟩ := h.exists_sorted? hname
  refine ⟨_, by rw [query, arrange, hsorted, Option.map_some, Option.map_some], ?_⟩
  -- To cut takes items away, and to narrow leaves what is compared.
  split
  · have hsublist := (cut_sublist q.limit? ascending.reverse).reverse
    rw [List.reverse_reverse] at hsublist
    rw [output, ← List.map_reverse, List.pairwise_map]
    simp only [rank_narrow hasked]
    exact hpairwise.sublist hsublist
  · rw [output, List.pairwise_map]
    simp only [rank_narrow hasked]
    exact hpairwise.sublist (cut_sublist q.limit? ascending)

end Table

/-! ## Stores that are filled by statements -/

namespace Store

open Table

variable {config : Config} {script : Script} {table name : String} {t : Table}

/-- Behind any statements the comparison by the range key can be turned around, and it is a total
order of the items of a table exactly if they are uniform. Where what a query finds is uniform, it
is returned in ascending order. -/
theorem totalOrder_run_iff (ht : (run config .empty script).tables.get? table = some t)
    (hname : t.rangeKey? = some name) :
    (∀ x ∈ t.items, ∀ y ∈ t.items, rank name y x = (rank name x y).swap) ∧
      (TotalOrder name t.items ↔ Uniform name t.items) ∧
      ∀ q : Query, q.attributesToGet = [] ∨ name ∈ q.attributesToGet →
        Uniform name (t.matching q.conditions) →
          ∃ o, t.query q = some o ∧
            (if q.scanForward? = some false then o.items.reverse else o.items).Pairwise
              fun x y ↦ rank name x y ≠ .gt := by
  have hwritten : t.Written := written_run config script table t ht
  refine ⟨fun x hx y hy ↦ rank_swap (hwritten x hx) (hwritten y hy),
    totalOrder_iff_uniform hwritten, fun q hasked huniform ↦ ?_⟩
  have hfound : ∀ x ∈ t.matching q.conditions, x.Written := fun x hx ↦
    hwritten x (List.mem_filter.mp hx).1
  exact ((totalOrder_iff_uniform hfound).mpr huniform).exists_query hname hasked

/-- Numbers that come in no order, two of which are equal. -/
def numbersScript : Script :=
  [("create table t (k string hash, r number range)", []),
    ("insert into t (k, r) values ('1', 10)", []),
    ("insert into t (k, r) values ('2', -9)", []),
    ("insert into t (k, r) values ('3', 1e1)", [])]

def numbersTable : Table :=
  ⟨[⟨"k", .hash⟩, ⟨"r", .range⟩],
    [.ofList [("k", .string "1"), ("r", .number "10")],
      .ofList [("k", .string "2"), ("r", .number "-9")],
      .ofList [("k", .string "3"), ("r", .number "1e1")]]⟩

theorem totalOrder_numbersTable :
    (run {} .empty numbersScript).tables.get? "t" = some numbersTable ∧
      numbersTable.rangeKey? = some "r" ∧ TotalOrder "r" numbersTable.items := by
  have hrequests : Script.requests numbersScript =
      [.createTable ⟨"t", [⟨"k", .string⟩, ⟨"r", .number⟩], numbersTable.keySchema, {}⟩,
        .putItem ⟨"t", .ofList [("k", .string "1"), ("r", .number "10")]⟩,
        .putItem ⟨"t", .ofList [("k", .string "2"), ("r", .number "-9")]⟩,
        .putItem ⟨"t", .ofList [("k", .string "3"), ("r", .number "1e1")]⟩] := by
    decide +kernel
  have htable : (run {} .empty numbersScript).tables.get? "t" = some numbersTable := by
    rw [tables_run, hrequests]
    decide +kernel
  have huniform : Uniform "r" numbersTable.items :=
    .inr (by decide +kernel)
  exact ⟨htable, rfl, (totalOrder_run_iff htable rfl).2.1.mpr huniform⟩

/-- Two strings in descending order, and an item between them that has no range key. -/
def mixedScript : Script :=
  [("create table t (k string hash, r string range)", []),
    ("insert into t (k, r) values ('1', 'b')", []),
    ("insert into t (k) values ('2')", []),
    ("insert into t (k, r) values ('3', 'a')", [])]

def mixedTable : Table :=
  ⟨[⟨"k", .hash⟩, ⟨"r", .range⟩],
    [.ofList [("k", .string "1"), ("r", .string "b")],
      .ofList [("k", .string "2")],
      .ofList [("k", .string "3"), ("r", .string "a")]]⟩

/-- The item without a range key ties with both others, so that these two stay as they came. -/
theorem run_mixedScript_not_transitive :
    (run {} .empty mixedScript).tables.get? "t" = some mixedTable ∧
      mixedTable.rangeKey? = some "r" ∧ ¬ TransitiveOn "r" mixedTable.items ∧
      ∃ o, mixedTable.query ⟨"t", [], ∅, none, none⟩ = some o ∧
        ¬ o.items.Pairwise fun x y ↦ rank "r" x y ≠ .gt := by
  have hrequests : Script.requests mixedScript =
      [.createTable ⟨"t", [⟨"k", .string⟩, ⟨"r", .string⟩], mixedTable.keySchema, {}⟩,
        .putItem ⟨"t", .ofList [("k", .string "1"), ("r", .string "b")]⟩,
        .putItem ⟨"t", .ofList [("k", .string "2")]⟩,
        .putItem ⟨"t", .ofList [("k", .string "3"), ("r", .string "a")]⟩] := by
    decide +kernel
  refine ⟨?_, rfl, ?_, ?_⟩
  · rw [tables_run, hrequests]
    decide +kernel
  · unfold TransitiveOn
    decide +kernel
  · refine ⟨_, rfl, ?_⟩
    decide +kernel

end Store

end ItemSql
