import ItemSql.Proofs.Sort.Short

/-!
# Sorting by runs

A list is cut into runs, and the runs that wait for a merge are on a stack. Whatever is merged, and
when, each run holds the elements of the part of the list where it stands (`Run.Holds`), and the
parts are next to each other. So the last run holds the whole list. Which runs are merged first is
of no concern here: the depths in the tree only tell how much work there is.
-/

namespace ItemSql.Sort

variable {α : Type} {less : α → α → Bool} {sortPart : List α → Option (List α)}
  {a : α} {as bs part other : List α} {run : Run α} {behind : List (Run α)}
  {waiting : List (Run α × Nat)} {room : Nat}

/-- A sort that breaks off, if at all, where the comparison is no order. -/
structure Sorts (less : α → α → Bool) (sort : List α → Option (List α)) : Prop where
  perm : ∀ {as sorted}, sort as = some sorted → sorted.Perm as
  exists_sorted : ∀ {as}, Orders less as → ∃ sorted, sort as = some sorted ∧ Sorted less as sorted

theorem Sorts.sorted {sorted : List α} (h : Sorts less sortPart) (hsort : sortPart as = some sorted)
    (horders : Orders less as) : Sorted less as sorted := by
  obtain ⟨sorted', hsort', hsorted⟩ := h.exists_sorted horders
  rw [hsort] at hsort'
  exact Option.some.inj hsort' ▸ hsorted

theorem sorts_smallSort (less : α → α → Bool) : Sorts less (smallSort less) :=
  ⟨smallSort_perm, exists_sorted_smallSort⟩

/-! ## Runs -/

/-- A run holds a part of a list. -/
structure Run.Holds (less : α → α → Bool) (part : List α) (run : Run α) : Prop where
  perm : run.items.Perm part
  sorted : run.inOrder = true → Orders less part → Sorted less part run.items
  kept : run.inOrder = false → run.items = part

theorem Run.Holds.of_sorted {sorted : List α} (hperm : sorted.Perm part)
    (hsorted : Orders less part → Sorted less part sorted) :
    Run.Holds less part ⟨sorted, true⟩ :=
  ⟨hperm, fun _ ↦ hsorted, nofun⟩

theorem Run.Holds.unsorted (less : α → α → Bool) (part : List α) :
    Run.Holds less part ⟨part, false⟩ :=
  ⟨.refl part, nofun, fun _ ↦ rfl⟩

theorem chain_prefix (follows : α → α → Bool) (a : α) (as : List α) :
    chain follows a as <+: as := by
  induction as generalizing a with
  | nil => exact List.prefix_refl []
  | cons b bs ih =>
    rw [chain]
    split
    · exact List.cons_prefix_cons.mpr ⟨rfl, ih b⟩
    · exact List.nil_prefix

/-- In a chain each element follows all that are before it. -/
theorem pairwise_chain {follows : α → α → Bool} {as : List α}
    (htrans : ∀ x ∈ a :: chain follows a as, ∀ y ∈ a :: chain follows a as,
      ∀ z ∈ a :: chain follows a as, follows x y = true → follows y z = true → follows x z = true) :
    (a :: chain follows a as).Pairwise fun x y ↦ follows x y = true := by
  induction as generalizing a with
  | nil => exact List.pairwise_singleton _ a
  | cons b bs ih =>
    rw [chain] at htrans ⊢
    split at htrans
    · rename_i hfollows
      rw [if_pos hfollows]
      have hrest := ih fun x hx y hy z hz ↦ htrans x (.tail a hx) y (.tail a hy) z (.tail a hz)
      refine List.pairwise_cons.mpr ⟨fun c hc ↦ ?_, hrest⟩
      rcases List.mem_cons.mp hc with rfl | hmem
      · exact hfollows
      · refine htrans a List.mem_cons_self b (.tail a List.mem_cons_self) c (.tail a hc) hfollows ?_
        exact (List.pairwise_cons.mp hrest).1 c hmem
    · rename_i hstop
      rw [if_neg hstop]
      exact List.pairwise_singleton _ a

/-- What descends has no ties. So it may be reversed. -/
theorem Stable.reverse_of_descending (h : as.Pairwise fun a b ↦ less b a = true) :
    Stable less as as.reverse := by
  induction as with
  | nil => exact .refl less []
  | cons a as ih =>
    obtain ⟨ha, has⟩ := List.pairwise_cons.mp h
    have hexchange : Stable less ([a] ++ as) (as ++ [a]) :=
      .exchange fun b hb c hc ↦ List.mem_singleton.mp hb ▸ ha c hc
    rw [List.reverse_cons]
    exact hexchange.trans ((ih has).append (.refl less [a]))

theorem sorted_reverse_of_descending (horders : Orders less as)
    (h : as.Pairwise fun a b ↦ less b a = true) : Sorted less as as.reverse := by
  refine ⟨.reverse_of_descending h, ascending_reverse.mpr (List.Pairwise.imp_of_mem ?_ h)⟩
  exact fun ha hb hless ↦ horders.asymm _ hb _ ha hless

/-- What is in order at the front of a list is sorted. -/
theorem exists_frontRun (less : α → α → Bool) (as : List α) :
    ∃ part rest, as = part ++ rest ∧ Run.Holds less part ⟨frontRun less as, true⟩ := by
  rcases as with - | ⟨a, as⟩
  · exact ⟨[], [], rfl, .of_sorted (.refl []) fun _ ↦ ⟨.refl less [], .nil⟩⟩
  have hpart (follows : α → α → Bool) :
      ∃ rest, a :: as = (a :: chain follows a as) ++ rest := by
    obtain ⟨rest, hrest⟩ := chain_prefix follows a as
    exact ⟨rest, congrArg (a :: ·) hrest.symm⟩
  rw [frontRun]
  split
  · obtain ⟨rest, hrest⟩ := hpart fun x y ↦ less y x
    refine ⟨_, rest, hrest, .of_sorted (List.reverse_perm _) fun h ↦ ?_⟩
    refine sorted_reverse_of_descending h (pairwise_chain fun x hx y hy z hz hyx hzy ↦ ?_)
    exact h.less_of_less hz hy hx hzy (h.asymm y hy x hx hyx)
  · obtain ⟨rest, hrest⟩ := hpart fun x y ↦ !less y x
    refine ⟨_, rest, hrest, .of_sorted (.refl _) fun h ↦ Ascending.sorted ?_⟩
    refine (pairwise_chain fun x hx y hy z hz hxy hyz ↦ ?_).imp fun hxy ↦ ?_
    · rw [Bool.not_eq_true'] at hxy hyz ⊢
      exact h.trans z hz y hy x hx hyz hxy
    · exact (Bool.not_eq_true' _).mp hxy

/-- The first run holds a part at the front of the list. -/
theorem holds_firstRun {eager : Bool} {good : Nat} (hgood : 0 < good) (has : as ≠ [])
    (h : firstRun less eager good as = some run) :
    ∃ part rest, as = part ++ rest ∧ 0 < part.length ∧ run.Holds less part := by
  have hpos {n : Nat} (hn : 0 < n) : 0 < (as.take n).length := by
    have hlength := List.length_pos_iff.mpr has
    rw [List.length_take]
    omega
  rw [firstRun] at h
  split at h
  · rename_i hlong
    obtain rfl := Option.some.inj h
    obtain ⟨part, rest, hparts, hholds⟩ := exists_frontRun less as
    exact ⟨part, rest, hparts, hholds.perm.length_eq ▸ Nat.lt_of_lt_of_le hgood hlong, hholds⟩
  split at h
  · obtain ⟨sorted, hsorted, rfl⟩ := Option.map_eq_some_iff.mp h
    have hsorts := sorts_smallSort less
    exact ⟨as.take 32, as.drop 32, (List.take_append_drop 32 as).symm, hpos (by decide),
      .of_sorted (hsorts.perm hsorted) (hsorts.sorted hsorted)⟩
  · obtain rfl := Option.some.inj h
    exact ⟨as.take good, as.drop good, (List.take_append_drop good as).symm, hpos hgood,
      .unsorted less _⟩

theorem exists_firstRun (eager : Bool) (good : Nat) (h : Orders less as) :
    ∃ run, firstRun less eager good as = some run := by
  rw [firstRun]
  split
  · exact ⟨_, rfl⟩
  split
  · obtain ⟨sorted, hsorted, -⟩ := exists_sorted_smallSort (h.mono (List.take_subset 32 as))
    exact ⟨_, congrArg _ hsorted⟩
  · exact ⟨_, rfl⟩

theorem goodLength_pos {size : Nat} (h : 0 < size) : 0 < goodLength size := by
  rw [goodLength]
  split
  · omega
  · have hlog : 1 ≤ size.log2 := (Nat.le_log2 (by omega)).mpr (by omega)
    have hshift : 2 ^ 1 ≤ 1 <<< ((1 + size.log2) / 2) := by
      rw [Nat.one_shiftLeft]
      exact Nat.pow_le_pow_right (by decide) (by omega)
    exact Nat.div_pos (Nat.le_trans hshift (Nat.le_add_right _ _)) (by decide)

/-- Runs that hold the parts of a list, one behind the other. -/
inductive Covers (less : α → α → Bool) : List α → List (Run α) → Prop
  | nil : Covers less [] []
  | cons {part rest : List α} {run : Run α} {behind : List (Run α)} (hrun : run.Holds less part)
      (hbehind : Covers less rest behind) : Covers less (part ++ rest) (run :: behind)

theorem covers_runs {eager : Bool} {good skipped : Nat} (hgood : 0 < good)
    (h : runs less eager good skipped as = some behind) :
    Covers less (as.drop skipped) behind := by
  induction as generalizing skipped behind with
  | nil =>
    rw [runs] at h
    rw [← Option.some.inj h, List.drop_nil]
    exact .nil
  | cons a as ih =>
    cases skipped with
    | succ skipped =>
      rw [runs] at h
      exact ih h
    | zero =>
      rw [runs] at h
      obtain ⟨run, hrun, h⟩ := Option.bind_eq_some_iff.mp h
      obtain ⟨behind, hbehind, h⟩ := Option.bind_eq_some_iff.mp h
      obtain rfl := Option.some.inj h
      obtain ⟨part, rest, hparts, hpos, hholds⟩ :=
        holds_firstRun hgood (List.cons_ne_nil a as) hrun
      obtain ⟨b, part, rfl⟩ := List.exists_cons_of_length_pos hpos
      rw [List.cons_append] at hparts
      obtain ⟨rfl, rfl⟩ := List.cons.inj hparts
      have hrest := ih hbehind
      rw [hholds.perm.length_eq, List.length_cons, Nat.add_sub_cancel, List.drop_left] at hrest
      exact .cons hholds hrest

theorem exists_runs (eager : Bool) (good skipped : Nat) (h : Orders less as) :
    ∃ behind, runs less eager good skipped as = some behind := by
  induction as generalizing skipped with
  | nil => exact ⟨[], by rw [runs]⟩
  | cons a as ih =>
    have hrest := h.mono (List.subset_cons_self a as)
    cases skipped with
    | succ skipped =>
      rw [runs]
      exact ih skipped hrest
    | zero =>
      obtain ⟨run, hrun⟩ := exists_firstRun eager good h
      obtain ⟨behind, hbehind⟩ := ih (run.items.length - 1) hrest
      rw [runs, hrun, Option.bind_eq_bind, Option.bind_some, hbehind]
      exact ⟨run :: behind, rfl⟩

/-! ## Merging runs -/

namespace Run.Holds

variable {left right merged : Run α} {sorted : List α}

theorem exists_sorted (h : run.Holds less part) (hsort : Sorts less sortPart)
    (horders : Orders less part) :
    ∃ sorted, run.sorted sortPart = some sorted ∧ Sorted less part sorted := by
  rw [Run.sorted]
  split
  · exact ⟨_, rfl, h.sorted ‹_› horders⟩
  · rename_i hunordered
    rw [h.kept (Bool.eq_false_iff.mpr hunordered)]
    exact hsort.exists_sorted horders

/-- A run that is sorted holds what it held. -/
theorem of_sorted_eq_some (h : run.Holds less part) (hsort : Sorts less sortPart)
    (hsorted : run.sorted sortPart = some sorted) : Run.Holds less part ⟨sorted, true⟩ := by
  refine .of_sorted ?_ fun horders ↦ ?_
  · rw [Run.sorted] at hsorted
    split at hsorted
    · exact Option.some.inj hsorted ▸ h.perm
    · exact (hsort.perm hsorted).trans h.perm
  · obtain ⟨sorted', hsorted', hresult⟩ := h.exists_sorted hsort horders
    rw [hsorted] at hsorted'
    exact Option.some.inj hsorted' ▸ hresult

/-- What comes of two runs holds what they held. -/
theorem mergeRuns (hleft : left.Holds less part) (hright : right.Holds less other)
    (hsort : Sorts less sortPart) (h : mergeRuns less sortPart room left right = some merged) :
    merged.Holds less (part ++ other) := by
  rw [Sort.mergeRuns] at h
  split at h
  · obtain ⟨ls, hls, h⟩ := Option.bind_eq_some_iff.mp h
    obtain ⟨rs, hrs, h⟩ := Option.bind_eq_some_iff.mp h
    obtain rfl := Option.some.inj h
    have hls := hleft.of_sorted_eq_some hsort hls
    have hrs := hright.of_sorted_eq_some hsort hrs
    refine .of_sorted ((merge_perm less ls rs).trans (hls.perm.append hrs.perm)) fun horders ↦ ?_
    have hpart := hls.sorted rfl (horders.mono (List.subset_append_left part other))
    have hother := hrs.sorted rfl (horders.mono (List.subset_append_right part other))
    exact hpart.merge hother horders
  · rename_i hwait
    simp only [Bool.or_eq_true, not_or, Bool.not_eq_true] at hwait
    obtain rfl := Option.some.inj h
    rw [hleft.kept hwait.1.1, hright.kept hwait.1.2]
    exact .unsorted less _

theorem exists_mergeRuns (hleft : left.Holds less part) (hright : right.Holds less other)
    (hsort : Sorts less sortPart) (room : Nat) (horders : Orders less (part ++ other)) :
    ∃ merged, Sort.mergeRuns less sortPart room left right = some merged := by
  rw [Sort.mergeRuns]
  split
  · obtain ⟨ls, hls, -⟩ :=
      hleft.exists_sorted hsort (horders.mono (List.subset_append_left part other))
    obtain ⟨rs, hrs, -⟩ :=
      hright.exists_sorted hsort (horders.mono (List.subset_append_right part other))
    rw [hls, Option.bind_eq_bind, Option.bind_some, hrs]
    exact ⟨_, rfl⟩
  · exact ⟨_, rfl⟩

end Run.Holds

/-- Runs that wait hold the parts of a list, the last one first. -/
inductive Waits (less : α → α → Bool) : List α → List (Run α × Nat) → Prop
  | nil : Waits less [] []
  | cons {before part : List α} {run : Run α} {waiting : List (Run α × Nat)} (depth : Nat)
      (hbefore : Waits less before waiting) (hrun : run.Holds less part) :
      Waits less (before ++ part) ((run, depth) :: waiting)

/-- However many of the waiting runs are merged, they and the run behind them hold the same list. -/
theorem Waits.collapse {before : List α} {depth : Nat} {merged : Run α}
    {waiting' : List (Run α × Nat)} (hbefore : Waits less before waiting)
    (hrun : run.Holds less part) (hsort : Sorts less sortPart)
    (h : collapse less sortPart room depth waiting run = some (merged, waiting')) :
    ∃ before' part', before ++ part = before' ++ part' ∧ Waits less before' waiting' ∧
      merged.Holds less part' := by
  induction hbefore generalizing run part with
  | nil =>
    rw [Sort.collapse] at h
    obtain ⟨rfl, rfl⟩ := Prod.mk.inj (Option.some.inj h)
    exact ⟨[], part, rfl, .nil, hrun⟩
  | cons meets hbefore hlast ih =>
    rename_i before last lastRun waiting
    rw [Sort.collapse] at h
    split at h
    · obtain ⟨both, hboth, h⟩ := Option.bind_eq_some_iff.mp h
      obtain ⟨before', part', hparts, hresult⟩ := ih (hlast.mergeRuns hrun hsort hboth) h
      exact ⟨before', part', by rw [List.append_assoc, hparts], hresult⟩
    · obtain ⟨rfl, rfl⟩ := Prod.mk.inj (Option.some.inj h)
      exact ⟨before ++ last, part, rfl, .cons meets hbefore hlast, hrun⟩

/-- At depth zero all runs are merged. -/
theorem collapse_zero {merged : Run α} {waiting' : List (Run α × Nat)}
    (h : collapse less sortPart room 0 waiting run = some (merged, waiting')) : waiting' = [] := by
  induction waiting generalizing run with
  | nil =>
    rw [collapse] at h
    exact (Prod.mk.inj (Option.some.inj h)).2.symm
  | cons last waiting ih =>
    rw [collapse, if_pos (Nat.zero_le _)] at h
    obtain ⟨both, -, h⟩ := Option.bind_eq_some_iff.mp h
    exact ih h

theorem Waits.exists_collapse {before : List α} (hbefore : Waits less before waiting)
    (hrun : run.Holds less part) (hsort : Sorts less sortPart) (room depth : Nat)
    (horders : Orders less (before ++ part)) :
    ∃ collapsed, Sort.collapse less sortPart room depth waiting run = some collapsed := by
  induction hbefore generalizing run part with
  | nil => exact ⟨_, by rw [Sort.collapse]⟩
  | cons meets hbefore hlast ih =>
    rename_i before last lastRun waiting
    rw [List.append_assoc] at horders
    obtain ⟨both, hboth⟩ := hlast.exists_mergeRuns hrun hsort room
      (horders.mono (List.subset_append_right before _))
    rw [Sort.collapse]
    split
    · rw [hboth, Option.bind_some]
      exact ih (hlast.mergeRuns hrun hsort hboth) horders
    · exact ⟨_, rfl⟩

/-- The tree of merges ends with one run, which holds the whole list. -/
theorem Covers.mergeTree {before rest : List α} {size start : Nat} {whole : Run α}
    (hbehind : Covers less rest behind) (hbefore : Waits less before waiting)
    (hrun : run.Holds less part) (hsort : Sorts less sortPart)
    (h : mergeTree less sortPart room size start waiting run behind = some whole) :
    whole.Holds less (before ++ part ++ rest) := by
  induction hbehind generalizing before part run start waiting with
  | nil =>
    rw [Sort.mergeTree] at h
    obtain ⟨⟨merged, waiting'⟩, hcollapse, rfl⟩ := Option.map_eq_some_iff.mp h
    obtain ⟨before', part', hparts, hwaits, hmerged⟩ := hbefore.collapse hrun hsort hcollapse
    obtain rfl := collapse_zero hcollapse
    cases hwaits
    rw [List.append_nil, hparts]
    exact hmerged
  | cons hnext hbehind ih =>
    rw [Sort.mergeTree] at h
    obtain ⟨⟨merged, waiting'⟩, hcollapse, h⟩ := Option.bind_eq_some_iff.mp h
    obtain ⟨before', part', hparts, hwaits, hmerged⟩ := hbefore.collapse hrun hsort hcollapse
    rw [hparts, ← List.append_assoc]
    exact ih (.cons _ hwaits hmerged) hnext h

theorem Covers.exists_mergeTree {before rest : List α} (hbehind : Covers less rest behind)
    (hbefore : Waits less before waiting) (hrun : run.Holds less part)
    (hsort : Sorts less sortPart) (room size start : Nat)
    (horders : Orders less (before ++ part ++ rest)) :
    ∃ whole, Sort.mergeTree less sortPart room size start waiting run behind = some whole := by
  induction hbehind generalizing before part run start waiting with
  | nil =>
    obtain ⟨collapsed, hcollapse⟩ :=
      hbefore.exists_collapse hrun hsort room 0 (horders.mono (List.subset_append_left _ _))
    rw [Sort.mergeTree, hcollapse]
    exact ⟨_, rfl⟩
  | cons hnext hbehind ih =>
    obtain ⟨⟨merged, waiting'⟩, hcollapse⟩ :=
      hbefore.exists_collapse hrun hsort room _ (horders.mono (List.subset_append_left _ _))
    obtain ⟨before', part', hparts, hwaits, hmerged⟩ := hbefore.collapse hrun hsort hcollapse
    rw [Sort.mergeTree, hcollapse, Option.bind_eq_bind, Option.bind_some]
    refine ih (.cons _ hwaits hmerged) hnext _ ?_
    rwa [hparts, ← List.append_assoc] at horders

theorem Covers.mergeAll_perm {size : Nat} {sorted : List α} (h : Covers less as behind)
    (hsort : Sorts less sortPart) (hmerge : mergeAll less sortPart room size behind = some sorted) :
    sorted.Perm as := by
  cases h with
  | nil => exact .of_eq (Option.some.inj hmerge).symm
  | cons hrun hbehind =>
    rw [mergeAll] at hmerge
    obtain ⟨whole, hwhole, hsorted⟩ := Option.bind_eq_some_iff.mp hmerge
    have hholds := hbehind.mergeTree .nil hrun hsort hwhole
    exact (hholds.of_sorted_eq_some hsort hsorted).perm

theorem Covers.exists_sorted_mergeAll (h : Covers less as behind) (hsort : Sorts less sortPart)
    (room size : Nat) (horders : Orders less as) :
    ∃ sorted, mergeAll less sortPart room size behind = some sorted ∧ Sorted less as sorted := by
  cases h with
  | nil => exact ⟨[], rfl, .refl less [], .nil⟩
  | cons hrun hbehind =>
    obtain ⟨whole, hwhole⟩ := hbehind.exists_mergeTree .nil hrun hsort room size 0 horders
    have hholds := hbehind.mergeTree .nil hrun hsort hwhole
    rw [mergeAll, hwhole, Option.bind_some]
    exact hholds.exists_sorted hsort horders

/-- A list is sorted by its runs if there is a way to sort the parts that are in no order. -/
theorem Sorts.sortByRuns (hsort : Sorts less sortPart) (room : Nat) (eager : Bool) :
    Sorts less (sortByRuns less sortPart room eager) := by
  have hcovers {as : List α} {behind : List (Run α)}
      (h : runs less eager (goodLength as.length) 0 as = some behind) : Covers less as behind := by
    rcases as with - | ⟨a, as⟩
    · rw [runs] at h
      exact Option.some.inj h ▸ .nil
    · exact covers_runs (goodLength_pos (Nat.zero_lt_succ _)) h
  constructor
  · intro as sorted h
    rw [Sort.sortByRuns] at h
    obtain ⟨behind, hruns, hmerge⟩ := Option.bind_eq_some_iff.mp h
    exact (hcovers hruns).mergeAll_perm hsort hmerge
  · intro as horders
    obtain ⟨behind, hruns⟩ := exists_runs eager (goodLength as.length) 0 horders
    rw [Sort.sortByRuns, hruns, Option.bind_some]
    exact (hcovers hruns).exists_sorted_mergeAll hsort room as.length horders

end ItemSql.Sort
