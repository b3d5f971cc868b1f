import ItemSql.Proofs.Json.Ordered
import ItemSql.Proofs.Json.Record

/-!
# Decoders that do not see the order of members

A decoder of records finds its fields by their names. So it answers the same for a value and for the
value with the members of all its objects in order (`OrderBlind`). A decoder that keeps the order of
members, as that of a map does, cannot; what it answers is then the same but for an order of its
own, and a relation says what this leaves open.

Decoders that are made of order-blind decoders are order-blind. Nothing is asked of how a value came
to be written, but that it can be read back: it may have members of unknown names, and several of
one name where the decoder passes over them.
-/

namespace ItemSql.Json

open Decode.Fields (named)

variable {α β : Type} {depth : Nat}

/-- If the decoder answers a value, it answers the value with its members in order alike. -/
def OrderBlind (decode : Decoder α) (Same : α → α → Prop) : Prop :=
  ∀ ⦃depth : Nat⦄ ⦃v : Json⦄ ⦃a : α⦄, Readable depth v → decode v.tree = .ok a →
    ∃ a', decode v.ordered.tree = .ok a' ∧ Same a a'

/-! ## Trees of ordered values -/

theorem tree_array (items : List Json) : (array items).tree = .array (items.map tree) .closed := by
  rw [tree, itemTrees_eq_map]

theorem tree_object (members : List (String × Json)) :
    (object members).tree = .object ((members.map (Prod.map id tree)).map named) .closed := by
  rw [tree, memberTrees_eq_map, List.map_map]
  rfl

theorem tree_ordered_array (items : List Json) :
    (array items).ordered.tree = .array (items.map fun v ↦ v.ordered.tree) .closed := by
  rw [ordered, orderedItems_eq_map, tree_array, List.map_map]
  rfl

/-- What is left of the members, with the trees of their values. -/
theorem exists_tree_ordered_object (members : List (String × Json)) :
    ∃ settled, (object members).ordered.tree = .object (settled.map named) .closed ∧
      Settles (members.map (Prod.map id fun v ↦ v.ordered.tree)) settled := by
  refine ⟨_, by rw [ordered, orderedMembers_eq_map, tree_object], ?_⟩
  have h := (settles_orderMembers (members.map (Prod.map id ordered))).map tree
  rwa [List.map_map] at h

/-- Nothing is wrong with a value that is passed over. -/
theorem Readable.fault?_eq_none {v : Json} (h : Readable depth v) : v.tree.fault? = none :=
  h.spells_compact.fault?_eq_none

namespace OrderBlind

variable {decode : Decoder α} {Same : α → α → Prop}

/-! ## Scalars -/

/-- A decoder that answers no value with several members. -/
theorem of_ordered_eq (h : ∀ (v : Json) a, decode v.tree = .ok a → v.ordered = v) :
    OrderBlind decode Eq := fun _ v a _ ha ↦ ⟨a, by rw [h v a ha, ha], rfl⟩

theorem of_scalar (harray : ∀ items a, decode (.array items .closed) ≠ .ok a)
    (hobject : ∀ members a, decode (.object members .closed) ≠ .ok a) : OrderBlind decode Eq := by
  refine of_ordered_eq fun v a ha ↦ ?_
  cases v with
  | array items => exact absurd ha (harray _ a)
  | object members => exact absurd ha (hobject _ a)
  | null | bool | integer | double | string => rfl

theorem string : OrderBlind Decode.string Eq :=
  of_scalar nofun nofun

theorem boolean : OrderBlind Decode.boolean Eq :=
  of_scalar nofun nofun

theorem fixedWidth (ofInt? : Int → Option α) (expected : String) :
    OrderBlind (Decode.fixedWidth ofInt? expected) Eq :=
  of_scalar nofun nofun

/-- A member of a vocabulary may stand in an object, but alone. -/
theorem variant (all : List α) (nameOf : α → String) :
    OrderBlind (Decode.variant all nameOf) Eq := by
  refine of_ordered_eq fun v a ha ↦ ?_
  cases v with
  | array items => cases ha
  | object members =>
    cases members with
    | nil => rfl
    | cons m more =>
      obtain ⟨name, v⟩ := m
      obtain ⟨text, -, ha⟩ := bind_eq_ok_iff.mp ha
      obtain ⟨a', -, ha⟩ := bind_eq_ok_iff.mp ha
      obtain ⟨⟨⟩, hunit, ha⟩ := bind_eq_ok_iff.mp ha
      cases more with
      | nil =>
        have hnull := Decode.unit_eq_ok_iff.mp hunit
        cases v with
        | null => rfl
        | bool | integer | double | string | array | object => cases hnull
      | cons _ _ => cases ha
  | null | bool | integer | double | string => rfl

/-! ## Decoders made of others -/

theorem map {Same' : β → β → Prop} (h : OrderBlind decode Same) {f : α → β}
    (hf : ∀ a a', Same a a' → Same' (f a) (f a')) :
    OrderBlind (fun node ↦ (decode node).map f) Same' := by
  intro depth v b hv hb
  obtain ⟨a, ha, rfl⟩ := map_eq_ok_iff.mp hb
  obtain ⟨a', ha', hsame⟩ := h hv ha
  exact ⟨f a', map_eq_ok_iff.mpr ⟨a', ha', rfl⟩, hf a a' hsame⟩

theorem eq_ok (h : OrderBlind decode Eq) {v : Json} {a : α} (hv : Readable depth v)
    (ha : decode v.tree = .ok a) : decode v.ordered.tree = .ok a := by
  obtain ⟨_, ha', rfl⟩ := h hv ha
  exact ha'

theorem list (h : OrderBlind decode Eq) : OrderBlind (Decode.list decode) Eq := by
  intro depth v as hv has
  obtain ⟨nodes, hnode, hitems⟩ := Decode.list_eq_ok_iff.mp has
  cases hv with
  | null | bool | integer | string | object => cases hnode
  | array hreadable =>
    rw [tree_array] at hnode
    obtain ⟨rfl, -⟩ := Node.array.inj hnode
    refine ⟨as, Decode.list_eq_ok_iff.mpr ⟨_, tree_ordered_array _, ?_⟩, rfl⟩
    rw [List.forall₂_map_left_iff] at hitems ⊢
    exact forall₂_imp_of_mem (fun v hv a ha ↦ h.eq_ok (hreadable v hv) ha) hitems

theorem optional (h : OrderBlind decode Eq) : OrderBlind (Decode.optional decode) Eq := by
  intro depth v a? hv ha
  refine ⟨a?, ?_, rfl⟩
  rw [Decode.optional_eq_ok_iff hv.fault?_eq_none] at ha
  rw [Decode.optional_eq_ok_iff hv.ordered.fault?_eq_none]
  rcases ha with ⟨hnull, rfl⟩ | ⟨hne, a, ha, rfl⟩
  · cases hv <;> cases hnull
    exact .inl ⟨rfl, rfl⟩
  · refine .inr ⟨?_, a, h.eq_ok hv ha, rfl⟩
    cases hv with
    | null => exact hne
    | bool | integer | string | array | object => nofun

end OrderBlind

/-! ## Records -/

namespace Decode

variable {members : List (String × Json)} {settled : List (String × Node)}

/-- A field is found among what is left of the members if it is found among the members. -/
theorem Field.Found.settle {f : Field α} {Same : α → α → Prop} {a : α}
    (hrefl : ∀ a, Same a a) (hblind : OrderBlind f.decode Same)
    (hreadable : ∀ m ∈ members, Readable depth m.2)
    (hsettled : Settles (members.map (Prod.map id fun v ↦ v.ordered.tree)) settled)
    (h : f.Found (members.map (Prod.map id tree)) a) : ∃ a', f.Found settled a' ∧ Same a a' := by
  generalize hnodes : members.map (Prod.map id tree) = nodes at h
  cases h with
  | supplied h =>
    obtain rfl := List.map_eq_nil_iff.mp hnodes
    obtain rfl := hsettled.eq_nil
    exact ⟨a, .supplied h, hrefl a⟩
  | member h =>
    obtain ⟨⟨name, v⟩, rfl, hm⟩ := List.map_eq_singleton_iff.mp hnodes
    obtain ⟨rfl, rfl⟩ := Prod.mk.inj hm
    obtain rfl := hsettled.eq_singleton
    obtain ⟨a', ha', hsame⟩ := hblind (hreadable _ List.mem_cons_self) h
    exact ⟨a', .member ha', hsame⟩

namespace Fields

/-- The fields are order-blind, and so a record of them is, up to the relation. -/
inductive Blind : {σ τ : Type} → Fields σ τ → (τ → τ → Prop) → Prop
  | none : Blind .none fun _ _ ↦ True
  | field {α σ τ : Type} {f : Field α} {rest : Fields σ τ} {Same : α → α → Prop}
      {SameRest : τ → τ → Prop} (hrefl : ∀ a, Same a a) (h : OrderBlind f.decode Same)
      (hrest : rest.Blind SameRest) :
      Blind (.field f rest) fun t t' ↦ Same t.1 t'.1 ∧ SameRest t.2 t'.2

variable {σ τ : Type} {fields : Fields σ τ} {Same : τ → τ → Prop} {t : τ}

theorem Blind.picks (h : fields.Blind Same) (hreadable : ∀ m ∈ members, Readable depth m.2)
    (hsettled : Settles (members.map (Prod.map id fun v ↦ v.ordered.tree)) settled)
    (hpicks : fields.Picks (members.map (Prod.map id tree)) t) :
    ∃ t', fields.Picks settled t' ∧ Same t t' := by
  induction h generalizing members settled with
  | none =>
    refine ⟨(), fun m hm ↦ ?_, trivial⟩
    obtain ⟨m', hm', rfl⟩ := List.mem_map.mp (hsettled.mem_of_mem hm)
    exact (hreadable m' hm').ordered.fault?_eq_none
  | @field α σ τ f rest Same SameRest hrefl hblind _ ih =>
    obtain ⟨a, others⟩ := t
    obtain ⟨hfound, hothers⟩ := hpicks
    have hsome (wanted : String → Bool) :
        ∀ m ∈ members.filter fun m ↦ wanted m.1, Readable depth m.2 :=
      fun m hm ↦ hreadable m (List.mem_of_mem_filter hm)
    rw [List.filter_map] at hfound hothers
    -- The members of a field, and those of the others, are settled each by themselves.
    have hsettles (wanted : String → Bool) :
        Settles ((members.filter fun m ↦ wanted m.1).map
          (Prod.map id fun v ↦ v.ordered.tree)) (settled.filter fun m ↦ wanted m.1) := by
      have h := hsettled.filter wanted
      rwa [List.filter_map] at h
    obtain ⟨a', ha', hsame⟩ := hfound.settle hrefl hblind (hsome _) (hsettles _)
    obtain ⟨others', hothers', hsames⟩ :=
      ih (hsome fun name ↦ !f.answers name) (hsettles fun name ↦ !f.answers name) hothers
    exact ⟨(a', others'), ⟨ha', hothers'⟩, hsame, hsames⟩

theorem Blind.lists (h : fields.Blind Same) {items : List Json}
    (hreadable : ∀ v ∈ items, Readable depth v) (hlists : fields.Lists (items.map tree) t) :
    ∃ t', fields.Lists (items.map fun v ↦ v.ordered.tree) t' ∧ Same t t' := by
  induction h generalizing items with
  | none =>
    obtain rfl := List.map_eq_nil_iff.mp hlists
    exact ⟨(), rfl, trivial⟩
  | field hrefl hblind _ ih =>
    obtain ⟨a, others⟩ := t
    cases items with
    | nil =>
      obtain ⟨ha, hothers⟩ := hlists
      obtain ⟨others', hothers', hsames⟩ := @ih _ [] hreadable hothers
      exact ⟨(a, others'), ⟨ha, hothers'⟩, hrefl a, hsames⟩
    | cons v vs =>
      obtain ⟨ha, hothers⟩ := hlists
      obtain ⟨hv, hvs⟩ := List.forall_mem_cons.mp hreadable
      obtain ⟨a', ha', hsame⟩ := hblind hv ha
      obtain ⟨others', hothers', hsames⟩ := ih hvs hothers
      exact ⟨(a', others'), ⟨ha', hothers'⟩, hsame, hsames⟩

/-- A decoder of records is order-blind if its fields are. -/
theorem Blind.decode (h : fields.Blind Same) (record : String) :
    OrderBlind (fields.decode record) Same := by
  intro depth v t hv ht
  rcases decode_eq_ok_iff.mp ht with ⟨_, hnode, -⟩ | ⟨values, hnode, hlists⟩
  · cases hv with
    | null | bool | integer | string | array => cases hnode
    | @object _ members hreadable =>
      rw [tree_object, decode_object_eq_ok_iff] at ht
      obtain ⟨settled, htree, hsettled⟩ := exists_tree_ordered_object members
      obtain ⟨t', ht', hsame⟩ := h.picks hreadable hsettled ht
      exact ⟨t', by rw [htree, decode_object_eq_ok_iff]; exact ht', hsame⟩
  · cases hv with
    | null | bool | integer | string | object => cases hnode
    | array hreadable =>
      rw [tree_array, decode_array_eq_ok_iff] at ht
      obtain ⟨t', ht', hsame⟩ := h.lists hreadable ht
      exact ⟨t', by rw [tree_ordered_array, decode_array_eq_ok_iff]; exact ht', hsame⟩

theorem Blind.record {α : Type} {SameRecord : α → α → Prop} {record : String} {f : τ → α}
    (h : fields.Blind Same) (hf : ∀ t t', Same t t' → SameRecord (f t) (f t')) :
    OrderBlind (fun node ↦ (fields.decode record node).map f) SameRecord :=
  (h.decode record).map hf

end Fields

end Decode

end ItemSql.Json
