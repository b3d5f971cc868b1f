import Mathlib.Data.String.Basic
import ItemSql.Proofs.Json.Tree
import ItemSql.Proofs.NameMap
import ItemSql.Proofs.Results

/-!
# Values with their members in order

To put the members of an object in order is to forget the order in which they were written, and, of
members with one name, all but the last. What is left of the members is described without the order
they are put in (`Settles`): each name once, with the value that it was given last. This is all that
anyone who finds members by their names can depend on, and it carries over to the members of some
names (`Settles.filter`).
-/

namespace ItemSql.Json

open Entries (Related)

/-! ## What is left of members -/

/-- Of the members, each name once, with the value that it was given last. -/
structure Settles {α : Type} (members settled : List (String × α)) : Prop where
  nodup_names : (settled.map Prod.fst).Nodup
  mem_iff : ∀ name value, (name, value) ∈ settled ↔ members.reverse.lookup name = some value

namespace Settles

variable {α β : Type} {members settled : List (String × α)} {m : String × α}

theorem mem_of_mem (h : Settles members settled) (hm : m ∈ settled) : m ∈ members :=
  List.mem_reverse.mp (Entries.mem_of_lookup ((h.mem_iff m.1 m.2).mp hm))

theorem filter (h : Settles members settled) (wanted : String → Bool) :
    Settles (members.filter fun m ↦ wanted m.1) (settled.filter fun m ↦ wanted m.1) where
  nodup_names := (List.filter_sublist.map Prod.fst).nodup h.nodup_names
  mem_iff name value := by
    rw [List.mem_filter, h.mem_iff, ← List.filter_reverse]
    cases hname : wanted name with
    | true => rw [Entries.lookup_filter wanted hname, and_iff_left rfl]
    | false =>
      refine iff_of_false (fun h ↦ Bool.false_ne_true h.2) fun h ↦ ?_
      have hwanted := (List.mem_filter.mp (Entries.mem_of_lookup h)).2
      exact Bool.false_ne_true (hname.symm.trans hwanted)

theorem map (h : Settles members settled) (f : α → β) :
    Settles (members.map (Prod.map id f)) (settled.map (Prod.map id f)) where
  nodup_names := by
    rw [List.map_map]
    exact h.nodup_names
  mem_iff name value := by
    rw [← List.map_reverse, Entries.lookup_map, Option.map_eq_some_iff, List.mem_map]
    constructor
    · rintro ⟨⟨n, a⟩, hmem, heq⟩
      obtain ⟨rfl, rfl⟩ := Prod.mk.inj heq
      exact ⟨a, (h.mem_iff _ a).mp hmem, rfl⟩
    · rintro ⟨a, hlast, rfl⟩
      exact ⟨(name, a), (h.mem_iff name a).mpr hlast, rfl⟩

theorem eq_nil (h : Settles [] settled) : settled = [] :=
  List.eq_nil_iff_forall_not_mem.mpr fun _ hm ↦ List.not_mem_nil (h.mem_of_mem hm)

theorem eq_singleton (h : Settles [m] settled) : settled = [m] := by
  have hm : m ∈ settled := (h.mem_iff m.1 m.2).mpr (List.lookup_cons_self ..)
  cases settled with
  | nil => cases hm
  | cons first rest =>
    have heq (m' : String × α) (hm' : m' ∈ first :: rest) : m' = m :=
      List.mem_singleton.mp (h.mem_of_mem hm')
    obtain rfl := heq first List.mem_cons_self
    refine congrArg (first :: ·) (List.eq_nil_iff_forall_not_mem.mpr fun m' hm' ↦ ?_)
    -- Another member would repeat the name.
    obtain rfl := heq m' (.tail _ hm')
    exact (List.nodup_cons.mp h.nodup_names).1 (List.mem_map_of_mem hm')

/-- What is left does not depend on who puts it in order, but for the order. -/
theorem perm {settled' : List (String × α)} (h : Settles members settled)
    (h' : Settles members settled') : settled.Perm settled' :=
  (List.perm_ext_iff_of_nodup h.nodup_names.of_map h'.nodup_names.of_map).mpr
    fun m ↦ (h.mem_iff m.1 m.2).trans (h'.mem_iff m.1 m.2).symm

/-- What is left of members is related to what is left of the pairs. -/
theorem related {R : α → β → Prop} {pairs : List (String × β)} (h : Settles members settled)
    (hunique : ∀ a b b', R a b → R a b' → b = b') (hrelated : Related R members pairs) :
    ∃ pairs', Related R settled pairs' ∧ Settles pairs pairs' := by
  have hvalues : ∀ m ∈ settled, ∃ p : String × β, m.1 = p.1 ∧ R m.2 p.2 := fun m hm ↦
    (exists_of_mem_left hrelated (h.mem_of_mem hm)).imp fun _ hp ↦ hp.2
  obtain ⟨pairs', hpairs'⟩ := exists_forall₂ hvalues
  have hlast : Related R members.reverse pairs.reverse := List.rel_reverse hrelated
  refine ⟨pairs', hpairs', Related.names_eq hpairs' ▸ h.nodup_names,
    fun name b ↦ ⟨fun hb ↦ ?_, fun hb ↦ ?_⟩⟩
  · obtain ⟨⟨n, a⟩, ha, rfl, hab⟩ := exists_of_mem_right hpairs' hb
    obtain ⟨b', hb', hab'⟩ := hlast.exists_lookup ((h.mem_iff n a).mp ha)
    rw [hb', hunique a b' b hab' hab]
  · obtain ⟨a, ha, hab⟩ := hlast.flip.exists_lookup hb
    obtain ⟨⟨_, b'⟩, hb', rfl, hab'⟩ :=
      exists_of_mem_left hpairs' ((h.mem_iff name a).mpr ha)
    rwa [hunique a b b' hab hab']

end Settles

/-! ## Members in order -/

/-- The members are in order of their names, and no name occurs twice. -/
def InOrder (members : List (String × Json)) : Prop :=
  members.Pairwise fun m m' ↦ m.1 < m'.1

variable {name : String} {v : Json} {members : List (String × Json)}

theorem mem_insertMember_iff (h : InOrder members) {m : String × Json} :
    m ∈ insertMember name v members ↔ m = (name, v) ∨ m ∈ members ∧ m.1 ≠ name := by
  induction members with
  | nil => simp [insertMember]
  | cons first rest ih =>
    obtain ⟨n, w⟩ := first
    obtain ⟨hfirst, hrest⟩ := List.pairwise_cons.mp h
    rw [insertMember]
    split
    · rename_i hlt
      have hne : ∀ m ∈ (n, w) :: rest, m.1 ≠ name :=
        List.forall_mem_cons.mpr ⟨hlt.ne', fun m hm ↦ (hlt.trans (hfirst m hm)).ne'⟩
      rw [List.mem_cons]
      exact or_congr_right ⟨fun hm ↦ ⟨hm, hne m hm⟩, And.left⟩
    · split
      · rename_i heq
        subst heq
        have hne : ∀ m ∈ rest, m.1 ≠ name := fun m hm ↦ (hfirst m hm).ne'
        rw [List.mem_cons, List.mem_cons]
        refine or_congr_right ⟨fun hm ↦ ⟨.inr hm, hne m hm⟩, ?_⟩
        rintro ⟨rfl | hm, hother⟩
        · exact absurd rfl hother
        · exact hm
      · rename_i hne
        rw [List.mem_cons, ih hrest, List.mem_cons, or_left_comm]
        refine or_congr_right ?_
        rw [or_and_right]
        refine or_congr_left ⟨?_, And.left⟩
        rintro rfl
        exact ⟨rfl, Ne.symm hne⟩

theorem InOrder.insertMember (h : InOrder members) (name : String) (v : Json) :
    InOrder (insertMember name v members) := by
  induction members with
  | nil => exact List.pairwise_singleton _ _
  | cons first rest ih =>
    obtain ⟨n, w⟩ := first
    obtain ⟨hfirst, hrest⟩ := List.pairwise_cons.mp h
    rw [Json.insertMember]
    split
    · rename_i hlt
      refine List.pairwise_cons.mpr ⟨List.forall_mem_cons.mpr ⟨hlt, fun m hm ↦ ?_⟩, h⟩
      exact hlt.trans (hfirst m hm)
    · split
      · rename_i heq
        subst heq
        exact List.pairwise_cons.mpr ⟨hfirst, hrest⟩
      · rename_i hle hne
        have hlt : n < name := lt_of_le_of_ne (not_lt.mp hle) (Ne.symm hne)
        refine List.pairwise_cons.mpr ⟨fun m hm ↦ ?_, ih hrest⟩
        rcases (mem_insertMember_iff hrest).mp hm with rfl | ⟨hm, -⟩
        · exact hlt
        · exact hfirst m hm

theorem orderMembers_concat (members : List (String × Json)) (m : String × Json) :
    orderMembers (members ++ [m]) = insertMember m.1 m.2 (orderMembers members) := by
  rw [orderMembers, List.foldl_append]
  rfl

theorem inOrder_orderMembers (members : List (String × Json)) :
    InOrder (orderMembers members) := by
  induction members using List.reverseRecOn with
  | nil => exact .nil
  | append_singleton members m ih =>
    rw [orderMembers_concat]
    exact ih.insertMember m.1 m.2

theorem settles_orderMembers (members : List (String × Json)) :
    Settles members (orderMembers members) where
  nodup_names := by
    refine List.pairwise_map.mpr ((inOrder_orderMembers members).imp fun h ↦ ?_)
    exact h.ne
  mem_iff name v := by
    induction members using List.reverseRecOn with
    | nil => exact iff_of_false List.not_mem_nil nofun
    | append_singleton members m ih =>
      rw [orderMembers_concat, mem_insertMember_iff (inOrder_orderMembers members), ih,
        List.reverse_concat, List.lookup_cons]
      by_cases hname : name = m.1
      · simp [hname, Prod.ext_iff, eq_comm]
      · simp [hname, beq_false_of_ne hname, Prod.ext_iff]

/-! ## Values -/

theorem orderedItems_eq_map (items : List Json) : orderedItems items = items.map ordered := by
  induction items with
  | nil => rfl
  | cons v vs ih => rw [orderedItems, ih, List.map_cons]

theorem orderedMembers_eq_map (members : List (String × Json)) :
    orderedMembers members = members.map (Prod.map id ordered) := by
  induction members with
  | nil => rfl
  | cons m ms ih =>
    rw [orderedMembers, ih]
    rfl

theorem Readable.ordered {depth : Nat} (h : Readable depth v) : Readable depth v.ordered := by
  induction h with
  | null => exact .null _
  | bool _ b => exact .bool _ b
  | integer _ h => exact .integer _ h
  | string _ text => exact .string _ text
  | array _ ih =>
    rw [Json.ordered, orderedItems_eq_map]
    exact .array (List.forall_mem_map.mpr ih)
  | object _ ih =>
    rw [Json.ordered, orderedMembers_eq_map]
    refine .object fun m hm ↦ ?_
    obtain ⟨m', hm', rfl⟩ := List.mem_map.mp ((settles_orderMembers _).mem_of_mem hm)
    exact ih m' hm'

end ItemSql.Json
