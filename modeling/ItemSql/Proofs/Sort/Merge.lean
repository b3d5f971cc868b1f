import ItemSql.Proofs.Sort.Sorted

/-!
# Merging

Whatever end two lists are merged from, each step cuts both of them, such that what is in front of
the cuts is not greater than what is behind (`Cut`). Between two lists that are in order there are
not two cuts that cross (`Cut.not_cross`). So the cut of a front of some length is the cut of the
back of the remaining length, and a merge from both ends does not break off
(`exists_sorted_mergeEnds`).

That nothing gets lost is due to the program alone and holds of any comparison.
-/

namespace ItemSql.Sort

variable {α : Type} {less : α → α → Bool} {ls rs lf lb rf rb : List α} {n : Nat}

/-! ## Cuts -/

/-- Two lists, each of which is cut into a front and a back. Nothing in the fronts is greater than
anything in the backs, and of what ties the left list comes first. -/
structure Cut (less : α → α → Bool) (lf lb rf rb : List α) : Prop where
  le : ∀ l ∈ lf, ∀ r ∈ rb, less r l = false
  lt : ∀ l ∈ lb, ∀ r ∈ rf, less r l = true

/-- Of two cuts, one has no more of the left list in front or else no less of the right one. -/
theorem Cut.not_cross {lf' lb' rf' rb' : List α} (h : Cut less lf lb rf rb)
    (h' : Cut less lf' lb' rf' rb') (hl : lf ++ lb = lf' ++ lb') (hr : rf ++ rb = rf' ++ rb') :
    lf.length ≤ lf'.length ∨ rf'.length ≤ rf.length := by
  rcases List.append_eq_append_iff.mp hl with ⟨between, rfl, rfl⟩ | ⟨lm, rfl, rfl⟩
  · exact .inl (by simp)
  rcases List.append_eq_append_iff.mp hr with ⟨rm, rfl, rfl⟩ | ⟨between, rfl, rfl⟩
  · -- An element between the cuts of each list would have to be in both orders.
    rcases lm with - | ⟨l, lm⟩
    · exact .inl (by simp)
    rcases rm with - | ⟨r, rm⟩
    · exact .inr (by simp)
    have hle := h.le l (by simp) r (by simp)
    rw [h'.lt l (by simp) r (by simp)] at hle
    cases hle
  · exact .inr (by simp)

theorem Cut.mono {lm rm : List α} (h : Cut less lf lb rf rb) (hl : lm ⊆ lb) (hr : rm ⊆ rb) :
    Cut less lf lm rf rm where
  le l hlmem r hrmem := h.le l hlmem r (hr hrmem)
  lt l hlmem r hrmem := h.lt l (hl hlmem) r hrmem

theorem Cut.of_flip (h : Cut (fun a b ↦ less b a) rb.reverse rf.reverse lb.reverse lf.reverse) :
    Cut less lf lb rf rb where
  le l hl r hr := h.le r (List.mem_reverse.mpr hr) l (List.mem_reverse.mpr hl)
  lt l hl r hr := h.lt r (List.mem_reverse.mpr hr) l (List.mem_reverse.mpr hl)

/-- Two lists are sorted together if their fronts and their backs are. -/
theorem Cut.sorted {front back : List α} (h : Cut less lf lb rf rb)
    (horders : Orders less ((lf ++ lb) ++ (rf ++ rb))) (hleft : Ascending less (lf ++ lb))
    (hright : Ascending less (rf ++ rb)) (hfront : Sorted less (lf ++ rf) front)
    (hback : Sorted less (lb ++ rb) back) :
    Sorted less ((lf ++ lb) ++ (rf ++ rb)) (front ++ back) := by
  refine hfront.append hback (fun a ha b hb ↦ ?_) h.lt
  rcases List.mem_append.mp ha with ha | ha <;> rcases List.mem_append.mp hb with hb | hb
  · exact (ascending_append.mp hleft).2.2 a ha b hb
  · exact h.le a ha b hb
  · exact horders.asymm a (by simp [ha]) b (by simp [hb]) (h.lt b hb a ha)
  · exact (ascending_append.mp hright).2.2 a ha b hb

/-! ## Taking -/

@[simp]
theorem takeFronts_zero : takeFronts less 0 ls rs = ⟨[], ls, rs⟩ := by
  rw [takeFronts]
  nofun

theorem takeFronts_cons {l r : α} : takeFronts less (n + 1) (l :: ls) (r :: rs) =
    if less r l then (takeFronts less n (l :: ls) rs).cons r
    else (takeFronts less n ls (r :: rs)).cons l := by
  rw [takeFronts]

/-- What is taken from the fronts is a front of each list. -/
theorem takeFronts_perm (less : α → α → Bool) (n : Nat) (ls rs : List α) :
    ∃ lf rf, ls = lf ++ (takeFronts less n ls rs).left ∧
      rs = rf ++ (takeFronts less n ls rs).right ∧
      (takeFronts less n ls rs).taken.Perm (lf ++ rf) := by
  fun_induction takeFronts less n ls rs with
  | case1 n l ls r rs hless ih =>
    obtain ⟨lf, rf, hl, hr, hperm⟩ := ih
    exact ⟨lf, r :: rf, hl, congrArg (r :: ·) hr, (hperm.cons r).trans List.perm_middle.symm⟩
  | case2 n l ls r rs hless ih =>
    obtain ⟨lf, rf, hl, hr, hperm⟩ := ih
    exact ⟨l :: lf, rf, congrArg (l :: ·) hl, hr, hperm.cons l⟩
  | case3 => exact ⟨[], [], rfl, rfl, .refl _⟩

/-- As many elements are taken as are asked for, if each list has that many. -/
theorem length_taken_takeFronts (hls : n ≤ ls.length) (hrs : n ≤ rs.length) :
    (takeFronts less n ls rs).taken.length = n := by
  induction n generalizing ls rs with
  | zero => simp
  | succ n ih =>
    obtain ⟨l, ls, rfl⟩ := List.exists_cons_of_length_pos (Nat.zero_lt_of_lt hls)
    obtain ⟨r, rs, rfl⟩ := List.exists_cons_of_length_pos (Nat.zero_lt_of_lt hrs)
    rw [takeFronts_cons]
    split
    · exact congrArg (· + 1) (ih (Nat.le_of_succ_le hls) (Nat.le_of_succ_le_succ hrs))
    · exact congrArg (· + 1) (ih (Nat.le_of_succ_le_succ hls) (Nat.le_of_succ_le hrs))

/-- One of the lists is used up if nothing else stops the taking. -/
theorem takeFronts_used (less : α → α → Bool) (h : ls.length + rs.length ≤ n) :
    (takeFronts less n ls rs).left = [] ∨ (takeFronts less n ls rs).right = [] := by
  induction n generalizing ls rs with
  | zero =>
    rw [takeFronts_zero]
    exact .inl (List.length_eq_zero_iff.mp (show ls.length = 0 by omega))
  | succ n ih =>
    rcases ls with - | ⟨l, ls⟩
    · exact .inl rfl
    rcases rs with - | ⟨r, rs⟩
    · exact .inr rfl
    rw [List.length_cons, List.length_cons] at h
    rw [takeFronts_cons]
    split
    · exact ih (by rw [List.length_cons]; omega)
    · exact ih (by rw [List.length_cons]; omega)

/-- What is taken from the fronts of two lists is sorted, and both are cut where this stops. -/
structure TakesFronts (less : α → α → Bool) (ls rs : List α) (t : Taking α) (lf rf : List α) :
    Prop where
  left : ls = lf ++ t.left
  right : rs = rf ++ t.right
  sorted : Sorted less (lf ++ rf) t.taken
  cut : Cut less lf t.left rf t.right

namespace TakesFronts

variable {t : Taking α} {l r : α}

theorem left_sublist (h : TakesFronts less ls rs t lf rf) : t.left.Sublist ls :=
  h.left ▸ List.sublist_append_right lf t.left

theorem right_sublist (h : TakesFronts less ls rs t lf rf) : t.right.Sublist rs :=
  h.right ▸ List.sublist_append_right rf t.right

theorem nothing (less : α → α → Bool) (ls rs : List α) :
    TakesFronts less ls rs ⟨[], ls, rs⟩ [] [] :=
  ⟨rfl, rfl, ⟨.refl less [], .nil⟩, nofun, nofun⟩

/-- An element of the right list is taken first if it is less than all of the left list. -/
theorem cons_right (h : TakesFronts less ls rs t lf rf) (hpass : ∀ a ∈ ls, less r a = true)
    (hback : ∀ a ∈ ls, less a r = false) (hle : ∀ b ∈ rs, less b r = false) :
    TakesFronts less ls (r :: rs) (t.cons r) lf (r :: rf) := by
  have hlf : lf ⊆ ls := fun a ha ↦ h.left ▸ List.mem_append_left t.left ha
  have hrf : rf ⊆ rs := fun b hb ↦ h.right ▸ List.mem_append_left t.right hb
  have hleft : t.left ⊆ ls := fun a ha ↦ h.left ▸ List.mem_append_right lf ha
  refine ⟨h.left, congrArg (r :: ·) h.right, ?_, h.cut.le, fun a ha b hb ↦ ?_⟩
  · refine h.sorted.pass (fun a ha ↦ hpass a (hlf ha)) fun a ha ↦ ?_
    exact (List.mem_append.mp ha).elim (fun ha ↦ hback a (hlf ha)) fun ha ↦ hle a (hrf ha)
  · rcases List.mem_cons.mp hb with rfl | hb
    · exact hpass a (hleft ha)
    · exact h.cut.lt a ha b hb

/-- An element of the left list is taken first if it is not greater than any other. -/
theorem cons_left (h : TakesFronts less ls rs t lf rf) (hleft : ∀ a ∈ ls, less a l = false)
    (hright : ∀ b ∈ rs, less b l = false) :
    TakesFronts less (l :: ls) rs (t.cons l) (l :: lf) rf := by
  have hlf : lf ⊆ ls := fun a ha ↦ h.left ▸ List.mem_append_left t.left ha
  have hrf : rf ⊆ rs := fun b hb ↦ h.right ▸ List.mem_append_left t.right hb
  have hrb : t.right ⊆ rs := fun b hb ↦ h.right ▸ List.mem_append_right rf hb
  refine ⟨congrArg (l :: ·) h.left, h.right, ?_, fun a ha b hb ↦ ?_, h.cut.lt⟩
  · refine h.sorted.cons fun a ha ↦ ?_
    exact (List.mem_append.mp ha).elim (fun ha ↦ hleft a (hlf ha)) fun ha ↦ hright a (hrf ha)
  · rcases List.mem_cons.mp ha with rfl | ha
    · exact hright b (hrb hb)
    · exact h.cut.le a ha b hb

/-- What is next in the two lists may be taken too, if it is sorted. -/
theorem sorted_append {lm rm middle : List α} (ht : TakesFronts less ls rs t lf rf)
    (h : Orders less (ls ++ rs)) (hls : Ascending less ls) (hrs : Ascending less rs)
    (hl : lm <+: t.left) (hr : rm <+: t.right) (hmiddle : Sorted less (lm ++ rm) middle) :
    Sorted less ((lf ++ lm) ++ (rf ++ rm)) (t.taken ++ middle) := by
  have hleft : (lf ++ lm).Sublist ls := ht.left ▸ hl.sublist.append_left lf
  have hright : (rf ++ rm).Sublist rs := ht.right ▸ hr.sublist.append_left rf
  have hcut := ht.cut.mono hl.subset hr.subset
  exact hcut.sorted (h.mono (hleft.append hright).subset) (hls.sublist hleft) (hrs.sublist hright)
    ht.sorted hmiddle

end TakesFronts

theorem exists_takesFronts (n : Nat) (h : Orders less (ls ++ rs)) (hls : Ascending less ls)
    (hrs : Ascending less rs) :
    ∃ lf rf, TakesFronts less ls rs (takeFronts less n ls rs) lf rf := by
  induction n generalizing ls rs with
  | zero => exact ⟨[], [], takeFronts_zero ▸ .nothing less ls rs⟩
  | succ n ih =>
    rcases ls with - | ⟨l, ls⟩
    · exact ⟨[], [], .nothing less [] rs⟩
    rcases rs with - | ⟨r, rs⟩
    · exact ⟨[], [], .nothing less (l :: ls) []⟩
    obtain ⟨hl, hls'⟩ := List.pairwise_cons.mp hls
    obtain ⟨hr, hrs'⟩ := List.pairwise_cons.mp hrs
    have hlmem : l ∈ (l :: ls) ++ r :: rs := List.mem_cons_self
    have hrmem : r ∈ (l :: ls) ++ r :: rs := List.mem_append_right _ List.mem_cons_self
    rw [takeFronts_cons]
    split
    · rename_i hless
      have hsubset : (l :: ls) ++ rs ⊆ (l :: ls) ++ r :: rs :=
        ((List.sublist_cons_self r rs).append_left (l :: ls)).subset
      obtain ⟨lf, rf, ht⟩ := ih (h.mono hsubset) hls hrs'
      have hpass : ∀ a ∈ l :: ls, less r a = true := by
        intro a ha
        rcases List.mem_cons.mp ha with rfl | hmem
        · exact hless
        · exact h.less_of_less hrmem hlmem (List.mem_append_left _ ha) hless (hl a hmem)
      refine ⟨lf, r :: rf, ht.cons_right hpass (fun a ha ↦ ?_) hr⟩
      exact h.asymm r hrmem a (List.mem_append_left _ ha) (hpass a ha)
    · rename_i hless
      rw [Bool.not_eq_true] at hless
      obtain ⟨lf, rf, ht⟩ := ih (h.mono (List.subset_cons_self l _)) hls' hrs
      refine ⟨l :: lf, rf, ht.cons_left hl fun b hb ↦ ?_⟩
      rcases List.mem_cons.mp hb with rfl | hmem
      · exact hless
      · exact h.trans b (List.mem_append_right _ hb) r hrmem l hlmem (hr b hmem) hless

/-- What is taken from the backs of two lists is sorted, and both are cut where this stops. -/
structure TakesBacks (less : α → α → Bool) (ls rs : List α) (t : Taking α) (lb rb : List α) :
    Prop where
  left : ls = t.left ++ lb
  right : rs = t.right ++ rb
  sorted : Sorted less (lb ++ rb) t.taken
  cut : Cut less t.left lb t.right rb

namespace TakesBacks

variable {t : Taking α}

theorem left_sublist (h : TakesBacks less ls rs t lb rb) : t.left.Sublist ls :=
  h.left ▸ List.sublist_append_left t.left lb

theorem right_sublist (h : TakesBacks less ls rs t lb rb) : t.right.Sublist rs :=
  h.right ▸ List.sublist_append_left t.right rb

/-- What is left may be taken too, if it is sorted. -/
theorem sorted_append {front : List α} (ht : TakesBacks less ls rs t lb rb)
    (h : Orders less (ls ++ rs)) (hls : Ascending less ls) (hrs : Ascending less rs)
    (hfront : Sorted less (t.left ++ t.right) front) :
    Sorted less (ls ++ rs) (front ++ t.taken) := by
  obtain ⟨rfl, rfl, hsorted, hcut⟩ := ht
  exact hcut.sorted h hls hrs hfront hsorted

end TakesBacks

theorem exists_takesBacks (n : Nat) (h : Orders less (ls ++ rs)) (hls : Ascending less ls)
    (hrs : Ascending less rs) :
    ∃ lb rb, TakesBacks less ls rs (takeBacks less n ls rs) lb rb := by
  have hflip : Orders (fun a b ↦ less b a) (rs.reverse ++ ls.reverse) := by
    refine h.flip.mono fun a ha ↦ ?_
    simpa [or_comm] using ha
  obtain ⟨rb, lb, ht⟩ := exists_takesFronts n hflip (ascending_reverse.mpr hrs)
    (ascending_reverse.mpr hls)
  refine ⟨lb.reverse, rb.reverse, ?_, ?_, ?_, ?_⟩
  · rw [takeBacks, ← List.reverse_append, ← ht.right, List.reverse_reverse]
  · rw [takeBacks, ← List.reverse_append, ← ht.left, List.reverse_reverse]
  · rw [← List.reverse_append]
    exact ht.sorted.reverse
  · apply Cut.of_flip
    simpa only [takeBacks, List.reverse_reverse] using ht.cut

theorem takeBacks_used (less : α → α → Bool) (h : ls.length + rs.length ≤ n) :
    (takeBacks less n ls rs).left = [] ∨ (takeBacks less n ls rs).right = [] := by
  rw [takeBacks, List.reverse_eq_nil_iff, List.reverse_eq_nil_iff, or_comm]
  apply takeFronts_used
  rw [List.length_reverse, List.length_reverse]
  omega

theorem length_taken_takeBacks (hls : n ≤ ls.length) (hrs : n ≤ rs.length) :
    (takeBacks less n ls rs).taken.length = n := by
  rw [takeBacks, List.length_reverse]
  apply length_taken_takeFronts
  · rwa [List.length_reverse]
  · rwa [List.length_reverse]

/-- What is taken from the backs is a back of each list. -/
theorem takeBacks_perm (less : α → α → Bool) (n : Nat) (ls rs : List α) :
    ∃ lb rb, ls = (takeBacks less n ls rs).left ++ lb ∧
      rs = (takeBacks less n ls rs).right ++ rb ∧
      (takeBacks less n ls rs).taken.Perm (lb ++ rb) := by
  obtain ⟨rb, lb, hr, hl, hperm⟩ := takeFronts_perm (fun a b ↦ less b a) n rs.reverse ls.reverse
  refine ⟨lb.reverse, rb.reverse, ?_, ?_, ?_⟩
  · rw [takeBacks, ← List.reverse_append, ← hl, List.reverse_reverse]
  · rw [takeBacks, ← List.reverse_append, ← hr, List.reverse_reverse]
  · rw [takeBacks, ← List.reverse_append]
    exact ((List.reverse_perm _).trans hperm).trans (List.reverse_perm _).symm

/-! ## Merging from one end -/

theorem perm_blocks (lf rf lb rb : List α) :
    ((lf ++ rf) ++ (lb ++ rb)).Perm ((lf ++ lb) ++ (rf ++ rb)) := by
  have hmiddle : (rf ++ (lb ++ rb)).Perm (lb ++ (rf ++ rb)) := by
    rw [← List.append_assoc, ← List.append_assoc]
    exact List.perm_append_comm.append_right rb
  rw [List.append_assoc, List.append_assoc]
  exact hmiddle.append_left lf

theorem merge_perm (less : α → α → Bool) (ls rs : List α) :
    (merge less ls rs).Perm (ls ++ rs) := by
  rw [merge]
  split
  · obtain ⟨lf, rf, hl, hr, hperm⟩ := takeFronts_perm less (ls.length + rs.length) ls rs
    rw [mergeUp]
    refine ((hperm.append_right _).trans (perm_blocks ..)).trans ?_
    rw [← hl, ← hr]
  · obtain ⟨lb, rb, hl, hr, hperm⟩ := takeBacks_perm less (ls.length + rs.length) ls rs
    rw [mergeDown]
    refine ((hperm.append_left _).trans (perm_blocks ..)).trans ?_
    rw [← hl, ← hr]

/-- What is left of two lists is in order if one of them is used up. -/
theorem sorted_append_of_nil (h : ls = [] ∨ rs = []) (hls : Ascending less ls)
    (hrs : Ascending less rs) : Sorted less (ls ++ rs) (ls ++ rs) := by
  rcases h with rfl | rfl
  · exact hrs.sorted
  · rw [List.append_nil]
    exact hls.sorted

theorem sorted_mergeUp (h : Orders less (ls ++ rs)) (hls : Ascending less ls)
    (hrs : Ascending less rs) : Sorted less (ls ++ rs) (mergeUp less ls rs) := by
  obtain ⟨lf, rf, ht⟩ := exists_takesFronts (ls.length + rs.length) h hls hrs
  have hused := takeFronts_used less (Nat.le_refl (ls.length + rs.length))
  have hsorted := ht.sorted_append h hls hrs (List.prefix_refl _) (List.prefix_refl _)
    (sorted_append_of_nil hused (hls.sublist ht.left_sublist) (hrs.sublist ht.right_sublist))
  rwa [← ht.left, ← ht.right] at hsorted

theorem sorted_mergeDown (h : Orders less (ls ++ rs)) (hls : Ascending less ls)
    (hrs : Ascending less rs) : Sorted less (ls ++ rs) (mergeDown less ls rs) := by
  obtain ⟨lb, rb, ht⟩ := exists_takesBacks (ls.length + rs.length) h hls hrs
  have hused := takeBacks_used less (Nat.le_refl (ls.length + rs.length))
  exact ht.sorted_append h hls hrs
    (sorted_append_of_nil hused (hls.sublist ht.left_sublist) (hrs.sublist ht.right_sublist))

/-- Two lists that are in order are merged into one. -/
theorem sorted_merge (h : Orders less (ls ++ rs)) (hls : Ascending less ls)
    (hrs : Ascending less rs) : Sorted less (ls ++ rs) (merge less ls rs) := by
  rw [merge]
  split
  · exact sorted_mergeUp h hls hrs
  · exact sorted_mergeDown h hls hrs

/-! ## Merging from both ends -/

/-- The element in the middle is the next of its list. -/
theorem withMiddle_perm {front back : Taking α} (size : Nat) (hl : ls = lf ++ front.left)
    (hr : rs = rf ++ front.right) (hperm : front.taken.Perm (lf ++ rf)) :
    ∃ lf' rf', ls = lf' ++ (front.withMiddle size back ls).left ∧
      rs = rf' ++ (front.withMiddle size back ls).right ∧
      (front.withMiddle size back ls).taken.Perm (lf' ++ rf') := by
  rw [Taking.withMiddle]
  split
  · exact ⟨lf, rf, hl, hr, hperm⟩
  split
  · refine ⟨lf ++ front.left.take 1, rf, ?_, hr, ?_⟩
    · rw [List.append_assoc, List.take_append_drop, hl]
    · have hblocks := perm_blocks lf rf (front.left.take 1) []
      rw [List.append_nil, List.append_nil] at hblocks
      exact (hperm.append_right _).trans hblocks
  · refine ⟨lf, rf ++ front.right.take 1, hl, ?_, ?_⟩
    · rw [List.append_assoc, List.take_append_drop, hr]
    · rw [← List.append_assoc]
      exact hperm.append_right _

/-- Where the ends of a merge meet, nothing is lost. -/
theorem meet_perm {front back : Taking α} {merged : List α} (hl : ls = lf ++ front.left)
    (hr : rs = rf ++ front.right) (hfront : front.taken.Perm (lf ++ rf))
    (hbl : ls = back.left ++ lb) (hbr : rs = back.right ++ rb)
    (hback : back.taken.Perm (lb ++ rb)) (h : front.meet back ls rs = some merged) :
    merged.Perm (ls ++ rs) := by
  obtain ⟨⟨hleft, hright⟩, rfl⟩ : (_ ∧ _) ∧ front.taken ++ back.taken = merged := by
    simpa only [Taking.meet, Option.ite_none_right_eq_some, Option.some.injEq] using h
  have hll := congrArg List.length hl
  have hrl := congrArg List.length hr
  rw [List.length_append] at hll hrl
  obtain ⟨rfl, -⟩ := List.append_inj (hl.symm.trans hbl) (by omega)
  obtain ⟨rfl, -⟩ := List.append_inj (hr.symm.trans hbr) (by omega)
  refine ((hfront.append hback).trans (perm_blocks ..)).trans ?_
  rw [← hbl, ← hbr]

theorem mergeEnds_perm {merged : List α} (h : mergeEnds less ls rs = some merged) :
    merged.Perm (ls ++ rs) := by
  obtain ⟨lf, rf, hl, hr, hfront⟩ := takeFronts_perm less ((ls.length + rs.length) / 2) ls rs
  obtain ⟨lb, rb, hbl, hbr, hback⟩ := takeBacks_perm less ((ls.length + rs.length) / 2) ls rs
  obtain ⟨lf, rf, hl, hr, hfront⟩ := withMiddle_perm (ls.length + rs.length) hl hr hfront
  exact meet_perm hl hr hfront hbl hbr hback h

/-- What is taken from the fronts, and a next element of one list or the other, end where the backs
begin if there are as many of each list as the backs leave. -/
theorem TakesFronts.meets {front back : Taking α} {lm lrest rm rrest : List α}
    (hfront : TakesFronts less ls rs front lf rf) (hback : TakesBacks less ls rs back lb rb)
    (h : Orders less (ls ++ rs)) (hls : Ascending less ls) (hrs : Ascending less rs)
    (hl : lm ++ lrest = front.left) (hr : rm ++ rrest = front.right) (hone : lm = [] ∨ rm = [])
    (hleft : (lf ++ lm).length = back.left.length)
    (hright : (rf ++ rm).length = back.right.length) :
    ls = back.left ++ lrest ∧ rs = back.right ++ rrest ∧
      Sorted less (back.left ++ back.right) (front.taken ++ (lm ++ rm)) := by
  have hlfront : lm <+: front.left := ⟨lrest, hl⟩
  have hrfront : rm <+: front.right := ⟨rrest, hr⟩
  have hlm : Ascending less lm := hls.sublist (hlfront.sublist.trans hfront.left_sublist)
  have hrm : Ascending less rm := hrs.sublist (hrfront.sublist.trans hfront.right_sublist)
  have hsorted := hfront.sorted_append h hls hrs hlfront hrfront
    (sorted_append_of_nil hone hlm hrm)
  have hlwhole : ls = (lf ++ lm) ++ lrest := by rw [List.append_assoc, hl, hfront.left]
  have hrwhole : rs = (rf ++ rm) ++ rrest := by rw [List.append_assoc, hr, hfront.right]
  obtain ⟨hlmeet, -⟩ := List.append_inj (hlwhole.symm.trans hback.left) hleft
  obtain ⟨hrmeet, -⟩ := List.append_inj (hrwhole.symm.trans hback.right) hright
  rw [hlmeet] at hlwhole hsorted
  rw [hrmeet] at hrwhole hsorted
  exact ⟨hlwhole, hrwhole, hsorted⟩

/-- The front and the middle of a merge end where the back begins. -/
theorem withMiddle_meets {front back : Taking α} (h : Orders less (ls ++ rs))
    (hls : Ascending less ls) (hrs : Ascending less rs)
    (hfront : TakesFronts less ls rs front lf rf) (hback : TakesBacks less ls rs back lb rb)
    (hfrontLength : front.taken.length = (ls.length + rs.length) / 2)
    (hbackLength : back.taken.length = (ls.length + rs.length) / 2) :
    let whole := front.withMiddle (ls.length + rs.length) back ls
    ls = back.left ++ whole.left ∧ rs = back.right ++ whole.right ∧
      Sorted less (back.left ++ back.right) whole.taken := by
  intro whole
  have hl := congrArg List.length hfront.left
  have hr := congrArg List.length hfront.right
  have hbl := congrArg List.length hback.left
  have hbr := congrArg List.length hback.right
  rw [hfront.sorted.perm.length_eq] at hfrontLength
  rw [hback.sorted.perm.length_eq] at hbackLength
  rw [List.length_append] at hl hr hbl hbr hfrontLength hbackLength
  -- Neither cut crosses the other, so the lengths say which list the middle is from.
  have hle := hfront.cut.not_cross hback.cut (hfront.left.symm.trans hback.left)
    (hfront.right.symm.trans hback.right)
  have hge := hback.cut.not_cross hfront.cut (hback.left.symm.trans hfront.left)
    (hback.right.symm.trans hfront.right)
  subst whole
  rw [Taking.withMiddle]
  split
  · have hmeets := hfront.meets hback h hls hrs (List.nil_append _) (List.nil_append _) (.inl rfl)
      (by rw [List.append_nil]; omega) (by rw [List.append_nil]; omega)
    rwa [List.append_nil, List.append_nil] at hmeets
  split
  · have hmeets := hfront.meets hback h hls hrs (List.take_append_drop 1 _) (List.nil_append _)
      (.inr rfl) (by rw [List.length_append, List.length_take]; omega)
      (by rw [List.append_nil]; omega)
    rwa [List.append_nil] at hmeets
  · exact hfront.meets hback h hls hrs (List.nil_append _) (List.take_append_drop 1 _) (.inl rfl)
      (by rw [List.append_nil]; omega) (by rw [List.length_append, List.length_take]; omega)

/-- A merge from both ends does not break off if it starts with two halves that are in order. -/
theorem exists_sorted_mergeEnds (h : Orders less (ls ++ rs)) (hls : Ascending less ls)
    (hrs : Ascending less rs) (hhalf : ls.length = (ls.length + rs.length) / 2) :
    ∃ merged, mergeEnds less ls rs = some merged ∧ Sorted less (ls ++ rs) merged := by
  obtain ⟨lf, rf, hfront⟩ := exists_takesFronts ((ls.length + rs.length) / 2) h hls hrs
  obtain ⟨lb, rb, hback⟩ := exists_takesBacks ((ls.length + rs.length) / 2) h hls hrs
  obtain ⟨hleft, hright, hsorted⟩ := withMiddle_meets h hls hrs hfront hback
    (length_taken_takeFronts (by omega) (by omega)) (length_taken_takeBacks (by omega) (by omega))
  have hmeet {t back : Taking α} (hl : ls = back.left ++ t.left) (hr : rs = back.right ++ t.right) :
      t.meet back ls rs = some (t.taken ++ back.taken) := by
    have hll := congrArg List.length hl
    have hrl := congrArg List.length hr
    rw [List.length_append] at hll hrl
    exact if_pos ⟨by omega, by omega⟩
  exact ⟨_, hmeet hleft hright, hback.sorted_append h hls hrs hsorted⟩

/-- Two halves that are sorted are merged into the whole. -/
theorem Sorted.exists_mergeEnds {as bs : List α} (hls : Sorted less as ls) (hrs : Sorted less bs rs)
    (h : Orders less (as ++ bs)) (hhalf : as.length = (as.length + bs.length) / 2) :
    ∃ merged, mergeEnds less ls rs = some merged ∧ Sorted less (as ++ bs) merged := by
  have hstable := hls.toStable.append hrs.toStable
  obtain ⟨merged, hmerged, hsorted⟩ := exists_sorted_mergeEnds (h.mono hstable.perm.subset)
    hls.ascending hrs.ascending (by rwa [hls.perm.length_eq, hrs.perm.length_eq])
  exact ⟨merged, hmerged, .of_stable hstable hsorted⟩

/-- Two parts that are sorted are merged into the whole. -/
theorem Sorted.merge {as bs : List α} (hls : Sorted less as ls) (hrs : Sorted less bs rs)
    (h : Orders less (as ++ bs)) : Sorted less (as ++ bs) (merge less ls rs) := by
  have hstable := hls.toStable.append hrs.toStable
  exact .of_stable hstable (sorted_merge (h.mono hstable.perm.subset) hls.ascending hrs.ascending)

end ItemSql.Sort
