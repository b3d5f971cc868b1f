import ItemSql.Proofs.Sort.Merge

/-!
# Sorting short lists

An element that is inserted passes those that are greater, and four elements are sorted by moving
one to the front and one to the back, past those that they are told apart from. A short list is
sorted in halves of this kind, so only their merge may break off.
-/

namespace ItemSql.Sort

variable {α : Type} {less : α → α → Bool} {a b c d : α} {as bs sorted descending : List α}

/-! ## Insertion -/

theorem insertBehind_perm (less : α → α → Bool) (a : α) (descending : List α) :
    (insertBehind less a descending).Perm (a :: descending) := by
  induction descending with
  | nil => exact .refl _
  | cons b bs ih =>
    rw [insertBehind]
    split
    · exact (ih.cons b).trans (.swap a b bs)
    · exact .refl _

/-- An element that is put among others in descending order is in its place. -/
theorem sorted_insertBehind (h : Orders less (a :: descending))
    (hdescending : Ascending less descending.reverse) :
    Sorted less (descending.reverse ++ [a]) (insertBehind less a descending).reverse := by
  induction descending with
  | nil => exact .singleton less a
  | cons b bs ih =>
    rw [List.reverse_cons] at hdescending
    obtain ⟨hbs, -, hle⟩ := ascending_append.mp hdescending
    have hbefore : ∀ c ∈ bs.reverse, less b c = false :=
      fun c hc ↦ hle c hc b (List.mem_singleton.mpr rfl)
    have hmem : b ∈ a :: b :: bs := .tail a List.mem_cons_self
    rw [insertBehind]
    split
    · rename_i hless
      have hab : less b a = false := h.asymm a List.mem_cons_self b hmem hless
      have hrest := ih (h.mono (List.cons_subset_cons a (List.subset_cons_self b bs))) hbs
      have hpass := hrest.pass_back (fun c hc ↦ List.mem_singleton.mp hc ▸ hless) fun c hc ↦ ?_
      · rwa [List.reverse_cons, List.reverse_cons, List.append_assoc]
      · rcases List.mem_append.mp hc with hc | hc
        · exact hbefore c hc
        · exact List.mem_singleton.mp hc ▸ hab
    · rename_i hless
      rw [Bool.not_eq_true] at hless
      rw [List.reverse_cons, List.reverse_cons, List.reverse_cons]
      apply Ascending.sorted
      refine ascending_append.mpr ⟨hdescending, List.pairwise_singleton _ a, fun c hc e he ↦ ?_⟩
      rw [List.mem_singleton.mp he]
      rcases List.mem_append.mp hc with hc | hc
      · refine h.trans a List.mem_cons_self b hmem c ?_ hless (hbefore c hc)
        exact .tail a (.tail b (List.mem_reverse.mp hc))
      · rwa [List.mem_singleton.mp hc]

theorem insertAll_cons (less : α → α → Bool) (sorted : List α) (a : α) (as : List α) :
    insertAll less sorted (a :: as) =
      insertAll less (insertBehind less a sorted.reverse).reverse as := by
  rw [insertAll, insertAll, List.foldl_cons, List.reverse_reverse]

theorem insertAll_perm (less : α → α → Bool) (sorted as : List α) :
    (insertAll less sorted as).Perm (sorted ++ as) := by
  induction as generalizing sorted with
  | nil => rw [insertAll, List.foldl_nil, List.reverse_reverse, List.append_nil]
  | cons a as ih =>
    rw [insertAll_cons]
    have hinsert : (insertBehind less a sorted.reverse).reverse.Perm (a :: sorted) :=
      (List.reverse_perm _).trans
        ((insertBehind_perm less a _).trans ((List.reverse_perm sorted).cons a))
    exact (ih _).trans ((hinsert.append_right as).trans List.perm_middle.symm)

theorem insertionSort_perm (less : α → α → Bool) (as : List α) :
    (insertionSort less as).Perm as :=
  insertAll_perm less [] as

theorem sorted_insertAll (h : Orders less (sorted ++ as)) (hsorted : Ascending less sorted) :
    Sorted less (sorted ++ as) (insertAll less sorted as) := by
  induction as generalizing sorted with
  | nil =>
    rw [insertAll, List.foldl_nil, List.reverse_reverse, List.append_nil]
    exact hsorted.sorted
  | cons a as ih =>
    have hfirst : Orders less (a :: sorted.reverse) := h.mono fun b hb ↦ by
      rcases List.mem_cons.mp hb with rfl | hb
      · exact List.mem_append_right _ List.mem_cons_self
      · exact List.mem_append_left _ (List.mem_reverse.mp hb)
    have hinsert := sorted_insertBehind hfirst (by rwa [List.reverse_reverse])
    rw [List.reverse_reverse] at hinsert
    have hstable := hinsert.toStable.append (.refl less as)
    rw [List.append_assoc, List.singleton_append] at hstable
    rw [insertAll_cons]
    exact .of_stable hstable (ih (h.mono hstable.perm.subset) hinsert.ascending)

theorem sorted_insertionSort (h : Orders less as) : Sorted less as (insertionSort less as) :=
  sorted_insertAll h .nil

/-! ## Four elements -/

theorem sortTwo_eq_insertBehind (less : α → α → Bool) (a b : α) :
    sortTwo less a b = (insertBehind less b [a]).reverse := by
  rw [sortTwo, insertBehind, apply_ite List.reverse]
  rfl

theorem sortTwo_perm (less : α → α → Bool) (a b : α) : (sortTwo less a b).Perm [a, b] := by
  rw [sortTwo_eq_insertBehind]
  exact (List.reverse_perm _).trans ((insertBehind_perm less b [a]).trans (.swap a b []))

theorem sorted_sortTwo (h : Orders less [a, b]) : Sorted less [a, b] (sortTwo less a b) := by
  rw [sortTwo_eq_insertBehind]
  have hlast : Orders less [b, a] := h.mono (by simp)
  exact sorted_insertBehind hlast (List.pairwise_singleton _ a)

theorem mergePairs_perm (less : α → α → Bool) (a b c d : α) :
    (mergePairs less a b c d).Perm [a, b, c, d] := by
  have hfront {x : α} (as : List α) {bs cs : List α} (h : bs.Perm (as ++ cs)) :
      (x :: bs).Perm (as ++ x :: cs) :=
    (h.cons x).trans List.perm_middle.symm
  have hback {x : α} (as : List α) {bs cs : List α} (h : bs.Perm (as ++ cs)) :
      (bs ++ [x]).Perm (as ++ x :: cs) :=
    (List.perm_append_singleton x bs).trans (hfront as h)
  rw [mergePairs]
  split <;> split
  · exact hfront [a, b] (hback [a] (sortTwo_perm less a d))
  · exact hfront [a, b] (hback [a, b] (sortTwo_perm less a b))
  · exact hfront [] (hback [] (sortTwo_perm less c d))
  · exact hfront [] (hback [b, c] (sortTwo_perm less b c))

/-- Two pairs are merged by moving the least element to the front and the greatest to the back. -/
theorem sorted_mergePairs (h : Orders less [a, b, c, d]) (hab : less b a = false)
    (hcd : less d c = false) : Sorted less [a, b, c, d] (mergePairs less a b c d) := by
  have hsorted {x y : α} (hx : x ∈ [a, b, c, d]) (hy : y ∈ [a, b, c, d]) :
      Sorted less [x, y] (sortTwo less x y) :=
    sorted_sortTwo (h.mono (List.cons_subset.mpr ⟨hx, List.cons_subset.mpr ⟨hy, nofun⟩⟩))
  rw [mergePairs]
  split <;> rename_i hca <;> split <;> rename_i hdb
  · have hcb := h.less_of_less (by simp) (by simp) (by simp) hca hab
    have hac := h.asymm c (by simp) a (by simp) hca
    have hbc := h.asymm c (by simp) b (by simp) hcb
    have hbd := h.asymm d (by simp) b (by simp) hdb
    have hback : Sorted less ([a] ++ b :: [d]) (sortTwo less a d ++ [b]) :=
      (hsorted (by simp) (by simp) : Sorted less ([a] ++ [d]) _).pass_back
        (by simp [hdb]) (by simp [hab, hbd])
    have hmiddle : Sorted less ([a, b] ++ [d]) (sortTwo less a d ++ [b]) := hback
    exact hmiddle.pass (by simp [hca, hcb]) (by simp [hac, hbc, hcd])
  · rw [Bool.not_eq_true] at hdb
    have hcb := h.less_of_less (by simp) (by simp) (by simp) hca hab
    have hac := h.asymm c (by simp) a (by simp) hca
    have hbc := h.asymm c (by simp) b (by simp) hcb
    have hda := h.trans d (by simp) b (by simp) a (by simp) hdb hab
    have hback : Sorted less ([a, b] ++ [d]) (sortTwo less a b ++ [d]) :=
      (hsorted (by simp) (by simp) : Sorted less ([a, b] ++ []) _).pass_back
        nofun (by simp [hda, hdb])
    exact hback.pass (by simp [hca, hcb]) (by simp [hac, hbc, hcd])
  · rw [Bool.not_eq_true] at hca
    have hcb := h.less_of_not_less (by simp) (by simp) (by simp) hcd hdb
    have hbc := h.asymm c (by simp) b (by simp) hcb
    have hbd := h.asymm d (by simp) b (by simp) hdb
    have hda := h.trans d (by simp) c (by simp) a (by simp) hcd hca
    have hback : Sorted less ([] ++ b :: [c, d]) (sortTwo less c d ++ [b]) :=
      (hsorted (by simp) (by simp) : Sorted less ([] ++ [c, d]) _).pass_back
        (by simp [hcb, hdb]) (by simp [hbc, hbd])
    exact hback.cons (by simp [hab, hca, hda])
  · rw [Bool.not_eq_true] at hca hdb
    have hda := h.trans d (by simp) b (by simp) a (by simp) hdb hab
    have hback : Sorted less ([b, c] ++ [d]) (sortTwo less b c ++ [d]) :=
      (hsorted (by simp) (by simp) : Sorted less ([b, c] ++ []) _).pass_back
        nofun (by simp [hdb, hcd])
    exact hback.cons (by simp [hab, hca, hda])

theorem sortFour_perm (less : α → α → Bool) (w x y z : α) :
    (sortFour less w x y z).Perm [w, x, y, z] := by
  have hfront : [x, w, y, z].Perm [w, x, y, z] := .swap w x [y, z]
  have hback {a b : α} : [a, b, z, y].Perm [a, b, y, z] := ((List.Perm.swap y z []).cons b).cons a
  rw [sortFour]
  split <;> split
  · exact ((mergePairs_perm less x w z y).trans hback).trans hfront
  · exact (mergePairs_perm less x w y z).trans hfront
  · exact (mergePairs_perm less w x z y).trans hback
  · exact mergePairs_perm less w x y z

theorem sorted_sortFour {w x y z : α} (h : Orders less [w, x, y, z]) :
    Sorted less [w, x, y, z] (sortFour less w x y z) := by
  have hswap {a b : α} (hless : less b a = true) : Stable less [a, b] [b, a] := by
    have hexchange : Stable less ([a] ++ [b]) ([b] ++ [a]) := by
      apply Stable.exchange
      simp [hless]
    exact hexchange
  have hpairs {a b c d : α} (hfront : Stable less [w, x] [a, b]) (hback : Stable less [y, z] [c, d])
      (hab : less b a = false) (hcd : less d c = false) :
      Sorted less [w, x, y, z] (mergePairs less a b c d) := by
    have hstable : Stable less [w, x, y, z] [a, b, c, d] := hfront.append hback
    exact .of_stable hstable (sorted_mergePairs (h.mono hstable.perm.subset) hab hcd)
  rw [sortFour]
  split <;> rename_i hxw <;> split <;> rename_i hzy
  · refine hpairs (hswap hxw) (hswap hzy) ?_ ?_
    · exact h.asymm x (by simp) w (by simp) hxw
    · exact h.asymm z (by simp) y (by simp) hzy
  · rw [Bool.not_eq_true] at hzy
    exact hpairs (hswap hxw) (.refl less _) (h.asymm x (by simp) w (by simp) hxw) hzy
  · rw [Bool.not_eq_true] at hxw
    exact hpairs (.refl less _) (hswap hzy) hxw (h.asymm z (by simp) y (by simp) hzy)
  · rw [Bool.not_eq_true] at hxw hzy
    exact hpairs (.refl less _) (.refl less _) hxw hzy

/-! ## Short lists -/

theorem presort_perm (h : presort less as = some sorted) : sorted.Perm as := by
  unfold presort at h
  split at h
  · obtain rfl := Option.some.inj h
    exact sortFour_perm less _ _ _ _
  · exact (mergeEnds_perm h).trans
      ((sortFour_perm less _ _ _ _).append (sortFour_perm less _ _ _ _))
  · obtain rfl := Option.some.inj h
    exact insertionSort_perm less as

theorem exists_sorted_presort (h : Orders less as) :
    ∃ sorted, presort less as = some sorted ∧ Sorted less as sorted := by
  unfold presort
  split
  · exact ⟨_, rfl, sorted_sortFour h⟩
  · rename_i s t u v w x y z
    have hparts : Orders less ([s, t, u, v] ++ [w, x, y, z]) := h
    have hls := sorted_sortFour (hparts.mono (List.subset_append_left _ _))
    have hrs := sorted_sortFour (hparts.mono (List.subset_append_right _ _))
    exact hls.exists_mergeEnds hrs hparts (by simp)
  · exact ⟨_, rfl, sorted_insertionSort h⟩

theorem sortHalf_perm {first : Nat} (h : sortHalf less first as = some sorted) :
    sorted.Perm as := by
  rw [sortHalf] at h
  obtain ⟨front, hfront, hinsert⟩ := Option.bind_eq_some_iff.mp h
  obtain rfl := Option.some.inj hinsert
  have hparts := (presort_perm hfront).append_right (as.drop first)
  rw [List.take_append_drop] at hparts
  exact (insertAll_perm less front _).trans hparts

theorem exists_sorted_sortHalf (first : Nat) (h : Orders less as) :
    ∃ sorted, sortHalf less first as = some sorted ∧ Sorted less as sorted := by
  obtain ⟨front, hfront, hsorted⟩ :=
    exists_sorted_presort (h.mono (List.take_subset first as))
  have hstable := hsorted.toStable.append (.refl less (as.drop first))
  rw [List.take_append_drop] at hstable
  rw [sortHalf, hfront]
  exact ⟨_, rfl, .of_stable hstable
    (sorted_insertAll (h.mono hstable.perm.subset) hsorted.ascending)⟩

theorem sortHalves_perm {first : Nat} (h : sortHalves less first as = some sorted) :
    sorted.Perm as := by
  rw [sortHalves] at h
  obtain ⟨front, hfront, h⟩ := Option.bind_eq_some_iff.mp h
  obtain ⟨back, hback, h⟩ := Option.bind_eq_some_iff.mp h
  have hparts := (sortHalf_perm hfront).append (sortHalf_perm hback)
  rw [List.take_append_drop] at hparts
  exact (mergeEnds_perm h).trans hparts

theorem exists_sorted_sortHalves (first : Nat) (h : Orders less as) :
    ∃ sorted, sortHalves less first as = some sorted ∧ Sorted less as sorted := by
  obtain ⟨front, hfront, hfrontSorted⟩ :=
    exists_sorted_sortHalf first (h.mono (List.take_subset (as.length / 2) as))
  obtain ⟨back, hback, hbackSorted⟩ :=
    exists_sorted_sortHalf first (h.mono (List.drop_subset (as.length / 2) as))
  have hparts : as.take (as.length / 2) ++ as.drop (as.length / 2) = as :=
    List.take_append_drop _ as
  obtain ⟨merged, hmerged, hsorted⟩ := hfrontSorted.exists_mergeEnds hbackSorted
    (hparts.symm ▸ h) (by rw [List.length_take, List.length_drop]; omega)
  rw [hparts] at hsorted
  rw [sortHalves, hfront, Option.bind_eq_bind, Option.bind_some, hback]
  exact ⟨merged, hmerged, hsorted⟩

theorem smallSort_perm (h : smallSort less as = some sorted) : sorted.Perm as := by
  rw [smallSort] at h
  split at h
  · exact .of_eq (Option.some.inj h).symm
  · exact sortHalves_perm h

/-- A short list is sorted if the comparison orders it. -/
theorem exists_sorted_smallSort (h : Orders less as) :
    ∃ sorted, smallSort less as = some sorted ∧ Sorted less as sorted := by
  rw [smallSort]
  split
  · rename_i hlength
    refine ⟨as, rfl, Ascending.sorted ?_⟩
    rcases as with - | ⟨a, - | ⟨b, as⟩⟩
    · exact .nil
    · exact List.pairwise_singleton _ a
    · exact absurd hlength (by simp)
  · exact exists_sorted_sortHalves _ h

end ItemSql.Sort
