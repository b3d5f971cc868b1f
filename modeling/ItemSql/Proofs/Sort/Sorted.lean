import ItemSql.Sort

/-!
# Sorted lists

A list is sorted if it is in ascending order and the elements that tie have kept their order. The
two parts are told separately, since a sort may keep ties before it has any order to show: an
arrangement is stable (`Stable`) if it can be had by exchanging neighbours of which the second is
less. Whole blocks may be exchanged as well, which is what merging and partition come down to
(`Sorted.append`).

The comparison is taken to be an order up to ties (`Orders`) of the elements at hand only.
-/

namespace ItemSql.Sort

variable {α : Type} {less : α → α → Bool} {p : α → Bool} {a : α} {as bs cs ds : List α}

/-! ## Orders -/

/-- Of the elements, the comparison is the strict side of an order up to ties. -/
structure Orders (less : α → α → Bool) (as : List α) : Prop where
  asymm : ∀ a ∈ as, ∀ b ∈ as, less a b = true → less b a = false
  trans : ∀ a ∈ as, ∀ b ∈ as, ∀ c ∈ as, less a b = false → less b c = false → less a c = false

namespace Orders

theorem mono (h : Orders less bs) (hsubset : as ⊆ bs) : Orders less as where
  asymm a ha b hb := h.asymm a (hsubset ha) b (hsubset hb)
  trans a ha b hb c hc := h.trans a (hsubset ha) b (hsubset hb) c (hsubset hc)

theorem irrefl (h : Orders less as) (ha : a ∈ as) : less a a = false := by
  refine Bool.eq_false_iff.mpr fun hless ↦ ?_
  exact Bool.false_ne_true ((h.asymm a ha a ha hless).symm.trans hless)

/-- What is less than an element is less than whatever this one is not greater than. -/
theorem less_of_less {b c : α} (h : Orders less as) (ha : a ∈ as) (hb : b ∈ as) (hc : c ∈ as)
    (hab : less a b = true) (hcb : less c b = false) : less a c = true := by
  refine Bool.of_not_eq_false fun hac ↦ ?_
  exact Bool.false_ne_true ((h.trans a ha c hc b hb hac hcb).symm.trans hab)

/-- An element that is not greater than another is less than whatever this one is less than. -/
theorem less_of_not_less {b c : α} (h : Orders less as) (ha : a ∈ as) (hb : b ∈ as) (hc : c ∈ as)
    (hba : less b a = false) (hbc : less b c = true) : less a c = true := by
  refine Bool.of_not_eq_false fun hac ↦ ?_
  exact Bool.false_ne_true ((h.trans b hb a ha c hc hba hac).symm.trans hbc)

/-- Seen from behind, an order is an order still. -/
theorem flip (h : Orders less as) : Orders (fun a b ↦ less b a) as where
  asymm a ha b hb := h.asymm b hb a ha
  trans a ha b hb c hc hab hbc := h.trans c hc b hb a ha hbc hab

end Orders

/-! ## Stable arrangements -/

/-- The elements of a list in an arrangement that keeps the order of ties: a kind of elements that
tie with each other stand there as they stood. -/
structure Stable (less : α → α → Bool) (as bs : List α) : Prop where
  perm : bs.Perm as
  ties : ∀ p : α → Bool, (∀ a ∈ as, ∀ b ∈ as, p a = true → p b = true → less a b = false) →
    bs.filter p = as.filter p

namespace Stable

theorem refl (less : α → α → Bool) (as : List α) : Stable less as as where
  perm := .refl as
  ties _ _ := rfl

theorem trans (h : Stable less as bs) (h' : Stable less bs cs) : Stable less as cs where
  perm := h'.perm.trans h.perm
  ties p hp := by
    have hmem {a : α} (ha : a ∈ bs) : a ∈ as := h.perm.mem_iff.mp ha
    rw [h'.ties p fun a ha b hb ↦ hp a (hmem ha) b (hmem hb), h.ties p hp]

theorem append (h : Stable less as bs) (h' : Stable less cs ds) :
    Stable less (as ++ cs) (bs ++ ds) where
  perm := h.perm.append h'.perm
  ties p hp := by
    rw [List.filter_append, List.filter_append, h.ties p, h'.ties p]
    · exact fun a ha b hb ↦ hp a (List.mem_append_right as ha) b (List.mem_append_right as hb)
    · exact fun a ha b hb ↦ hp a (List.mem_append_left cs ha) b (List.mem_append_left cs hb)

/-- Two blocks change places if all of the second one is less. -/
theorem exchange (h : ∀ a ∈ as, ∀ b ∈ bs, less b a = true) :
    Stable less (as ++ bs) (bs ++ as) where
  perm := List.perm_append_comm
  ties p hp := by
    rw [List.filter_append, List.filter_append]
    -- Only one of the blocks can have elements of the kind, since these tie.
    rcases hfilter : as.filter p with - | ⟨a, as'⟩
    · simp
    · have ha : a ∈ as.filter p := hfilter ▸ List.mem_cons_self
      have hbs : bs.filter p = [] := by
        rw [List.filter_eq_nil_iff]
        intro b hb hpb
        rw [List.mem_filter] at ha
        have htie := hp b (List.mem_append_right as hb) a (List.mem_append_left bs ha.1) hpb ha.2
        rw [h a ha.1 b hb] at htie
        cases htie
      simp [hbs]

theorem reverse (h : Stable (fun a b ↦ less b a) as bs) : Stable less as.reverse bs.reverse where
  perm := (List.reverse_perm bs).trans (h.perm.trans (List.reverse_perm as).symm)
  ties p hp := by
    rw [List.filter_reverse, List.filter_reverse, h.ties p]
    intro a ha b hb hpa hpb
    exact hp b (List.mem_reverse.mpr hb) a (List.mem_reverse.mpr ha) hpb hpa

end Stable

/-! ## Sorted lists -/

/-- No element is less than one before it. -/
def Ascending (less : α → α → Bool) (as : List α) : Prop :=
  as.Pairwise fun a b ↦ less b a = false

/-- The elements of a list in ascending order, in which those that tie have kept their order. -/
structure Sorted (less : α → α → Bool) (as bs : List α) : Prop extends Stable less as bs where
  ascending : Ascending less bs

theorem ascending_append : Ascending less (as ++ bs) ↔
    Ascending less as ∧ Ascending less bs ∧ ∀ a ∈ as, ∀ b ∈ bs, less b a = false :=
  List.pairwise_append

theorem Ascending.sorted (h : Ascending less as) : Sorted less as as :=
  ⟨.refl less as, h⟩

theorem ascending_reverse :
    Ascending less as.reverse ↔ Ascending (fun a b ↦ less b a) as :=
  List.pairwise_reverse

namespace Sorted

variable {bs' cs' : List α}

theorem singleton (less : α → α → Bool) (a : α) : Sorted less [a] [a] :=
  ⟨.refl less [a], List.pairwise_singleton _ a⟩

/-- What is sorted may be arranged first, if that keeps ties. -/
theorem of_stable (h : Stable less as bs) (hsorted : Sorted less bs cs) : Sorted less as cs :=
  ⟨h.trans hsorted.toStable, hsorted.ascending⟩

theorem reverse (h : Sorted (fun a b ↦ less b a) as bs) : Sorted less as.reverse bs.reverse :=
  ⟨h.toStable.reverse, ascending_reverse.mpr h.ascending⟩

/-- Two lists are sorted one behind the other if nothing in the first one is greater. -/
theorem append_of_le (hfront : Sorted less as bs) (hback : Sorted less cs ds)
    (hle : ∀ a ∈ as, ∀ c ∈ cs, less c a = false) : Sorted less (as ++ cs) (bs ++ ds) := by
  refine ⟨hfront.toStable.append hback.toStable, ascending_append.mpr
    ⟨hfront.ascending, hback.ascending, fun a ha b hb ↦ ?_⟩⟩
  exact hle a (hfront.perm.mem_iff.mp ha) b (hback.perm.mem_iff.mp hb)

/-- A list is sorted part by part if it is cut into two parts, each of two blocks, such that the
first part has nothing that is greater than anything of the second one. The blocks in the middle
change places if they do not tie. -/
theorem append (hfront : Sorted less (as ++ cs) bs) (hback : Sorted less (as' ++ cs') bs')
    (hcut : ∀ a ∈ as ++ cs, ∀ b ∈ as' ++ cs', less b a = false)
    (hcross : ∀ a ∈ as', ∀ c ∈ cs, less c a = true) :
    Sorted less ((as ++ as') ++ (cs ++ cs')) (bs ++ bs') := by
  have hexchange : Stable less (as ++ ((as' ++ cs) ++ cs')) (as ++ ((cs ++ as') ++ cs')) :=
    (Stable.refl less as).append ((Stable.exchange hcross).append (.refl less cs'))
  have hparts := hfront.append_of_le hback hcut
  rw [List.append_assoc, ← List.append_assoc cs] at hparts
  have hwhole := of_stable hexchange hparts
  rwa [List.append_assoc as', ← List.append_assoc as] at hwhole

/-- An element that is not greater than any other goes to the front, past those that are greater. -/
theorem pass {a : α} (h : Sorted less (as ++ cs) bs) (hpass : ∀ b ∈ as, less a b = true)
    (hle : ∀ b ∈ as ++ cs, less b a = false) : Sorted less (as ++ a :: cs) (a :: bs) := by
  have hfront : Sorted less ([] ++ [a]) [a] := .singleton less a
  refine hfront.append h (fun b hb ↦ ?_) fun b hb c hc ↦ ?_
  · exact List.mem_singleton.mp hb ▸ hle
  · exact List.mem_singleton.mp hc ▸ hpass b hb

theorem cons {a : α} (h : Sorted less as bs) (hle : ∀ b ∈ as, less b a = false) :
    Sorted less (a :: as) (a :: bs) := by
  have hfront : Sorted less ([] ++ as) bs := h
  exact hfront.pass nofun hle

/-- An element that is not less than any other goes to the back, past those that are less. -/
theorem pass_back {b : α} (h : Sorted less (as ++ cs) bs) (hpass : ∀ c ∈ cs, less c b = true)
    (hle : ∀ a ∈ as ++ cs, less b a = false) : Sorted less (as ++ b :: cs) (bs ++ [b]) := by
  have hback : Sorted less ([b] ++ []) [b] := .singleton less b
  have happend := h.append hback (fun a ha c hc ↦ ?_) fun a ha c hc ↦ ?_
  · rwa [List.append_nil, List.append_assoc] at happend
  · exact List.mem_singleton.mp hc ▸ hle a ha
  · exact List.mem_singleton.mp ha ▸ hpass c hc

end Sorted

end ItemSql.Sort
