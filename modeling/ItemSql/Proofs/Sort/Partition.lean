import ItemSql.Proofs.Sort.Runs

/-!
# Sorting by partition

A partition around a pivot keeps ties, since what goes to different sides is told apart. If the
pivot is as small as anything else, what is not greater than it ties with it and is in order. All
this is so if the comparison is an order: then the sort has a result, which is the sorted list.
Whatever the comparison is, a result has the elements of the list (`sorts_sort`), and up to twenty
elements there always is one (`not_orders_of_sort_eq_none`).
-/

namespace ItemSql.Sort

variable {α : Type} {less : α → α → Bool} {kind : α → Bool} {as bs sorted : List α}

/-! ## Partition -/

/-- A partition keeps ties if one side is less than the other. -/
theorem Stable.partition
    (h : ∀ a ∈ as, ∀ b ∈ as, kind a = true → kind b = false → less a b = true) :
    Stable less as (as.filter kind ++ as.filter fun a ↦ !kind a) := by
  induction as with
  | nil => exact .refl less []
  | cons a as ih =>
    have hrest := (Stable.refl less [a]).append
      (ih fun b hb c hc ↦ h b (.tail a hb) c (.tail a hc))
    cases hkind : kind a with
    | true =>
      rw [List.filter_cons_of_pos hkind, List.filter_cons_of_neg (by simp [hkind])]
      exact hrest
    | false =>
      rw [List.filter_cons_of_neg (by simp [hkind]), List.filter_cons_of_pos (by simp [hkind])]
      have hexchange : Stable less ([a] ++ as.filter kind) (as.filter kind ++ [a]) := by
        refine .exchange fun b hb c hc ↦ ?_
        obtain ⟨hmem, hc⟩ := List.mem_filter.mp hc
        rw [List.mem_singleton.mp hb]
        exact h c (.tail a hmem) a List.mem_cons_self hc hkind
      have hpass := hexchange.append (.refl less (as.filter fun a ↦ !kind a))
      rw [List.append_assoc, List.append_assoc] at hpass
      exact hrest.trans hpass

theorem take_append_get_cons_drop (as : List α) (i : Fin as.length) :
    as.take i ++ as.get i :: as.drop (i + 1) = as := by
  rw [List.get_eq_getElem, List.getElem_cons_drop, List.take_append_drop]

/-- What is of a kind and what is not are all elements, the one in the middle among them. -/
theorem sift_perm (kind : α → Bool) (as : List α) (i : Fin as.length) :
    (sift kind false as i ++ sift (fun a ↦ !kind a) true as i).Perm as := by
  have hblocks := perm_blocks ((as.take i).filter kind) ((as.drop (i + 1)).filter kind)
    ((as.take i).filter fun a ↦ !kind a) (as.get i :: (as.drop (i + 1)).filter fun a ↦ !kind a)
  have hfront := List.filter_append_perm kind (as.take i)
  have hback := List.filter_append_perm kind (as.drop (i + 1))
  have hparts := hfront.append (List.perm_middle.trans (hback.cons (as.get i)))
  rw [take_append_get_cons_drop] at hparts
  have hsift : sift kind false as i ++ sift (fun a ↦ !kind a) true as i =
      ((as.take i).filter kind ++ (as.drop (i + 1)).filter kind) ++
        (((as.take i).filter fun a ↦ !kind a) ++
          as.get i :: (as.drop (i + 1)).filter fun a ↦ !kind a) := by
    simp [sift]
  exact hsift ▸ hblocks.trans hparts

/-- The elements of a kind are sifted out if that in the middle is wanted just if it is one. -/
theorem sift_eq_filter (kind : α → Bool) {wanted : Bool} {i : Fin as.length}
    (h : kind (as.get i) = wanted) :
    sift kind wanted as i = as.filter kind := by
  have hfilter := congrArg (List.filter kind) (take_append_get_cons_drop as i)
  rw [List.filter_append] at hfilter
  rw [sift, List.append_assoc, ← hfilter]
  subst h
  cases hkind : kind (as.get i) with
  | true =>
    rw [List.filter_cons_of_pos hkind]
    rfl
  | false =>
    rw [List.filter_cons_of_neg (hkind ▸ Bool.false_ne_true)]
    rfl

/-! ## Partition again and again -/

theorem quicksort_perm {limit : Nat} {least? : Option α}
    (h : quicksort less limit least? as = some sorted) : sorted.Perm as := by
  induction limit generalizing least? as sorted with
  | zero =>
    rw [quicksort] at h
    split at h
    · exact smallSort_perm h
    · exact ((sorts_smallSort less).sortByRuns _ true).perm h
  | succ limit ih =>
    rw [quicksort] at h
    split at h
    · exact smallSort_perm h
    dsimp only at h
    split at h
    · obtain ⟨rest, hrest, rfl⟩ := Option.map_eq_some_iff.mp h
      exact ((ih hrest).append_left _).trans (List.perm_append_comm.trans (sift_perm ..))
    · obtain ⟨back, hback, h⟩ := Option.bind_eq_some_iff.mp h
      obtain ⟨front, hfront, h⟩ := Option.bind_eq_some_iff.mp h
      obtain rfl := Option.some.inj h
      exact ((ih hfront).append (ih hback)).trans (sift_perm ..)

/-- Two sorted parts of a partition are sorted together. -/
theorem Sorted.partition {low high : List α} (h : Orders less as)
    (hless : ∀ a ∈ as, ∀ b ∈ as, kind a = true → kind b = false → less a b = true)
    (hlow : Sorted less (as.filter kind) low)
    (hhigh : Sorted less (as.filter fun a ↦ !kind a) high) : Sorted less as (low ++ high) := by
  refine .of_stable (.partition hless) (hlow.append_of_le hhigh fun a ha b hb ↦ ?_)
  obtain ⟨hamem, ha⟩ := List.mem_filter.mp ha
  obtain ⟨hbmem, hb⟩ := List.mem_filter.mp hb
  exact h.asymm a hamem b hbmem (hless a hamem b hbmem ha ((Bool.not_eq_true' _).mp hb))

section Pivot

variable {pivot : α} {front back : List α}

/-- What is less than a pivot and what is not are sorted together. -/
theorem Sorted.partition_pivot (h : Orders less as) (hpivot : pivot ∈ as)
    (hfront : Sorted less (as.filter (less · pivot)) front)
    (hback : Sorted less (as.filter fun a ↦ !less a pivot) back) :
    Sorted less as (front ++ back) := by
  refine .partition h (fun a ha b hb hless hle ↦ ?_) hfront hback
  exact h.less_of_less ha hpivot hb hless hle

/-- If nothing is less than a pivot, what ties with it is in order, and all else is greater. -/
theorem Sorted.partition_ties (h : Orders less as) (hpivot : pivot ∈ as)
    (hge : ∀ a ∈ as, less a pivot = false) (hback : Sorted less (as.filter (less pivot)) back) :
    Sorted less as ((as.filter fun a ↦ !less pivot a) ++ back) := by
  refine .partition h (fun a ha b hb hle hless ↦ ?_) (Ascending.sorted ?_) ?_
  · rw [Bool.not_eq_true'] at hle
    rw [Bool.not_eq_false'] at hless
    exact h.less_of_not_less ha hpivot hb hle hless
  · refine List.pairwise_iff_forall_sublist.mpr fun {a b} hsublist ↦ ?_
    obtain ⟨ha, hle⟩ := List.mem_filter.mp (hsublist.subset List.mem_cons_self)
    obtain ⟨hb, -⟩ := List.mem_filter.mp (hsublist.subset (.tail a List.mem_cons_self))
    exact h.trans b hb pivot hpivot a ha (hge b hb) ((Bool.not_eq_true' _).mp hle)
  · simpa only [Bool.not_not] using hback

end Pivot

/-! ### The element that is known

Only what comes behind a pivot has an element that is known to be no greater than the rest, and
that is the pivot. It is not in the part itself, so it is found in the list that is sorted. -/

/-- Nothing in a part is less than the element that is known, which is of the whole list. -/
def Least (less : α → α → Bool) (bs as : List α) (least? : Option α) : Prop :=
  ∀ least ∈ least?, least ∈ bs ∧ ∀ a ∈ as, less a least = false

theorem Least.none : Least less bs as none :=
  nofun

theorem Least.filter {least? : Option α} (h : Least less bs as least?) (kind : α → Bool) :
    Least less bs (as.filter kind) least? := by
  intro least hleast
  obtain ⟨hmem, hge⟩ := h least hleast
  exact ⟨hmem, fun a ha ↦ hge a (List.mem_filter.mp ha).1⟩

theorem Least.pivot {pivot : α} (hpivot : pivot ∈ bs) :
    Least less bs (as.filter fun a ↦ !less a pivot) (some pivot) := by
  intro least hleast
  obtain rfl := Option.some.inj hleast
  exact ⟨hpivot, fun a ha ↦ (Bool.not_eq_true' _).mp (List.mem_filter.mp ha).2⟩

/-- Nothing is less than a pivot if the element that is known is not, or if nothing is found to
be. -/
theorem Least.not_less {least? : Option α} {pivot : α} (hleast : Least less bs as least?)
    (h : Orders less bs) (hsubset : as ⊆ bs) (hpivot : pivot ∈ bs)
    (hstop : (least?.any (fun least ↦ !less least pivot) ||
      (as.filter (less · pivot)).isEmpty) = true) :
    ∀ a ∈ as, less a pivot = false := by
  intro a ha
  obtain hknown | hempty := (Bool.or_eq_true _ _).mp hstop
  · obtain ⟨least, hmem, hle⟩ := (Option.any_eq_true _ _).mp hknown
    obtain ⟨hleastMem, hge⟩ := hleast least hmem
    exact h.trans a (hsubset ha) least hleastMem pivot hpivot (hge a ha)
      ((Bool.not_eq_true' _).mp hle)
  · rw [List.isEmpty_iff, List.filter_eq_nil_iff] at hempty
    exact Bool.eq_false_iff.mpr (hempty a ha)

/-- A list is sorted by partition if nothing in it is less than the element that is known. -/
theorem exists_sorted_quicksort (limit : Nat) {least? : Option α} (h : Orders less bs)
    (hsubset : as ⊆ bs) (hleast : Least less bs as least?) :
    ∃ sorted, quicksort less limit least? as = some sorted ∧ Sorted less as sorted := by
  induction limit generalizing least? as with
  | zero =>
    rw [quicksort]
    split
    · exact exists_sorted_smallSort (h.mono hsubset)
    · exact ((sorts_smallSort less).sortByRuns _ true).exists_sorted (h.mono hsubset)
  | succ limit ih =>
    rw [quicksort]
    split
    · exact exists_sorted_smallSort (h.mono hsubset)
    dsimp only
    generalize Sort.pivot less as 0 as.length _ _ = i
    have hmem : as.get i ∈ as := List.get_mem as i
    have horders := h.mono hsubset
    have hirrefl := horders.irrefl hmem
    have hpart (kind : α → Bool) : as.filter kind ⊆ bs :=
      fun a ha ↦ hsubset (List.mem_filter.mp ha).1
    rw [sift_eq_filter (less · (as.get i)) hirrefl, sift_eq_filter (less (as.get i)) hirrefl,
      sift_eq_filter (fun a ↦ !less (as.get i) a) (by rw [hirrefl]; rfl),
      sift_eq_filter (fun a ↦ !less a (as.get i)) (by rw [hirrefl]; rfl)]
    split
    · have hge := hleast.not_less h hsubset (hsubset hmem) ‹_›
      obtain ⟨rest, hrest, hsorted⟩ := ih (hpart _) .none
      rw [hrest]
      exact ⟨_, rfl, .partition_ties horders hmem hge hsorted⟩
    · obtain ⟨back, hback, hbackSorted⟩ := ih (hpart _) (.pivot (hsubset hmem))
      obtain ⟨front, hfront, hfrontSorted⟩ := ih (hpart _) (hleast.filter _)
      rw [hback, Option.bind_eq_bind, Option.bind_some, hfront]
      exact ⟨_, rfl, .partition_pivot horders hmem hfrontSorted hbackSorted⟩

theorem sorts_quicksort (less : α → α → Bool) (limit : List α → Nat) :
    Sorts less fun as ↦ quicksort less (limit as) none as where
  perm := quicksort_perm
  exists_sorted h := exists_sorted_quicksort _ h (List.Subset.refl _) .none

/-! ## The sort -/

/-- A list of at most twenty elements is sorted by insertion. -/
theorem sort_of_length_le (h : as.length ≤ 20) : sort less as = some (insertionSort less as) :=
  if_pos h

/-- The sort has the elements of the list, if it has a result. Where the comparison is an order, it
does have one, and this is sorted. -/
theorem sorts_sort (less : α → α → Bool) : Sorts less (sort less) := by
  constructor
  · intro as sorted h
    rw [sort] at h
    dsimp only at h
    split at h
    · exact Option.some.inj h ▸ insertionSort_perm less as
    · exact ((sorts_quicksort less _).sortByRuns _ _).perm h
  · intro as h
    rw [sort]
    dsimp only
    split
    · exact ⟨_, rfl, sorted_insertionSort h⟩
    · exact ((sorts_quicksort less _).sortByRuns _ _).exists_sorted h

/-- The sort breaks off only on more than twenty elements, and where the comparison is no order. -/
theorem not_orders_of_sort_eq_none (h : sort less as = none) :
    20 < as.length ∧ ¬ Orders less as := by
  constructor
  · refine Nat.lt_of_not_le fun hlength ↦ ?_
    rw [sort_of_length_le hlength] at h
    cases h
  · intro horders
    obtain ⟨sorted, hsorted, -⟩ := (sorts_sort less).exists_sorted horders
    rw [h] at hsorted
    cases hsorted

end ItemSql.Sort
