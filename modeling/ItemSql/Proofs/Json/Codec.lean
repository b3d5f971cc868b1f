import ItemSql.Proofs.Json.Record
import ItemSql.Proofs.Json.Tree

/-!
# Values that are decoded from what was written

A written value *denotes* a value of another type under a decoder of that type, if its text can be
read back and the decoder answers that value. So a writer and a decoder fit each other if what is
written for a value denotes it. There is one lemma for each way to make a decoder, and a type whose
decoder is made of others needs no more than these.

A record is written as an object that may leave out a field whose value stands in for it. The
decoder takes the members in any order, by their names; here they come in the order of the fields,
and `Fields.Apart` is what keeps a member from being taken for a field before its own.
-/

namespace ItemSql.Json

/-! ## Written values and decoders -/

/-- The value can be read back from its text, and the decoder answers `a` for it. Its brackets are
open inside each other up to the given depth at most. -/
structure Denotes {α : Type} (decode : Decoder α) (depth : Nat) (v : Json) (a : α) : Prop where
  readable : Readable depth v
  decode_tree : decode v.tree = .ok a

namespace Denotes

variable {α β : Type} {decode : Decoder α} {depth : Nat} {v : Json} {a : α}

/-- What is written for a value is decoded as that value. -/
theorem bytes (h : Denotes decode depth v a) :
    Decode.bytes decode (Text.utf8 v.compact) = .ok a := by
  rw [Decode.bytes, Decode.glyphs, h.readable.ofGlyphs_compact]
  dsimp only
  rw [h.decode_tree]
  rfl

theorem mono (h : Denotes decode depth v a) {depth' : Nat} (hle : depth ≤ depth') :
    Denotes decode depth' v a :=
  ⟨h.readable.mono hle, h.decode_tree⟩

theorem map (h : Denotes decode depth v a) (f : α → β) :
    Denotes (fun node ↦ (decode node).map f) depth v (f a) := by
  refine ⟨h.readable, ?_⟩
  rw [h.decode_tree]
  rfl

/-! ## Scalars -/

theorem string (text : String) : Denotes Decode.string depth (.string text) text :=
  ⟨.string _ text, rfl⟩

theorem boolean (b : Bool) : Denotes Decode.boolean depth (.bool b) b :=
  ⟨.bool _ b, rfl⟩

theorem fixedWidth {ofInt? : Int → Option α} {expected : String} {n : Int} (hword : IsWord n)
    (h : ofInt? n = some a) : Denotes (Decode.fixedWidth ofInt? expected) depth (.integer n) a := by
  refine ⟨.integer _ hword, ?_⟩
  rw [tree, Decode.fixedWidth, value?_ofInt hword]
  dsimp only
  rw [h]

theorem int64 (n : Int64) : Denotes Decode.int64 depth (.integer n.toInt) n :=
  fixedWidth (isWord_toInt64 n) (Decimal.toInt64?_toInt n)

theorem int32 (n : Int32) : Denotes Decode.int32 depth (.integer n.toInt) n :=
  fixedWidth (isWord_toInt32 n) (Decimal.toInt32?_toInt n)

/-- A member of a vocabulary is found by its name. -/
theorem variant {all : List α} {nameOf : α → String}
    (h : all.find? (fun b ↦ nameOf b = nameOf a) = some a) :
    Denotes (Decode.variant all nameOf) depth (.string (nameOf a)) a := by
  refine ⟨.string _ _, ?_⟩
  change Decode.variant.resolve all nameOf (nameOf a) = _
  rw [Decode.variant.resolve, h]

/-! ## Lists and options -/

theorem list {as : List α} {ofValue : α → Json} (h : ∀ a ∈ as, Denotes decode depth (ofValue a) a) :
    Denotes (Decode.list decode) (depth + 1) (.array (as.map ofValue)) as := by
  refine ⟨.array fun v hv ↦ ?_, ?_⟩
  · obtain ⟨a, ha, rfl⟩ := List.mem_map.mp hv
    exact (h a ha).readable
  · rw [tree, itemTrees_eq_map, List.map_map]
    refine Decode.list_eq_ok_iff.mpr ⟨_, rfl, List.forall₂_map_left_iff.mpr ?_⟩
    exact List.forall₂_same.mpr fun a ha ↦ (h a ha).decode_tree

/-- An option is written as its value, unless that value is written as null. -/
theorem optional (h : Denotes decode depth v a) (hne : v ≠ .null) :
    Denotes (Decode.optional decode) depth v (some a) := by
  refine ⟨h.readable, ?_⟩
  have hdecode : Except.map some (decode v.tree) = .ok (some a) :=
    congrArg (Except.map some) h.decode_tree
  cases h.readable with
  | null => exact absurd rfl hne
  | bool | integer | string | array | object => exact hdecode

end Denotes

/-! ## Records -/

namespace Decode

/-- The value stands in for a field that an object has not. -/
inductive Missing.Supplies {α : Type} : Missing α → α → Prop
  | inObject (a : α) : Supplies (.inObject a) a
  | anywhere (a : α) : Supplies (.anywhere a) a

namespace Fields

/-- The members are those of the fields in order, with the values of a record. A field may be left
out if its value stands in for it. -/
inductive Holds (depth : Nat) : {σ τ : Type} → Fields σ τ → List (String × Json) → τ → Prop
  | none : Holds depth .none [] ()
  | present {α σ τ : Type} {f : Field α} {rest : Fields σ τ} {v : Json} {a : α}
      {ms : List (String × Json)} {t : τ} (h : Denotes f.decode depth v a)
      (hrest : Holds depth rest ms t) : Holds depth (.field f rest) ((f.name, v) :: ms) (a, t)
  | absent {α σ τ : Type} {f : Field α} {rest : Fields σ τ} {a : α}
      {ms : List (String × Json)} {t : τ} (h : f.missing.Supplies a)
      (hrest : Holds depth rest ms t) : Holds depth (.field f rest) ms (a, t)

variable {depth : Nat} {α σ τ : Type} {fields : Fields σ τ} {ms : List (String × Json)} {t : τ}

theorem Holds.readable (h : fields.Holds depth ms t) : ∀ m ∈ ms, Readable depth m.2 := by
  induction h with
  | none => simp
  | present h _ ih => exact List.forall_mem_cons.mpr ⟨h.readable, ih⟩
  | absent _ _ ih => exact ih

theorem Holds.within {meant : String → Bool} (h : fields.Holds depth ms t)
    (hwithin : fields.Within meant) : ∀ m ∈ ms, meant m.1 = true := by
  induction h with
  | none => exact List.forall_mem_nil _
  | @present _ _ _ f _ _ _ _ _ _ _ ih =>
    exact List.forall_mem_cons.mpr ⟨hwithin.1 f.name f.answers_name, ih hwithin.2⟩
  | absent _ _ ih => exact ih hwithin.2

theorem value?_of_supplies {missing : Missing α} {a : α} (h : missing.Supplies a) :
    missing.value? = some a := by
  cases h <;> rfl

/-- Members of the fields behind a field are not taken for it. -/
theorem Holds.filter_answers {f : Field α} (h : fields.Holds depth ms t)
    (hwithin : fields.Within fun name ↦ !f.answers name) :
    (ms.map fun m ↦ (m.1, m.2.tree)).filter (fun m ↦ f.answers m.1) = [] ∧
      (ms.map fun m ↦ (m.1, m.2.tree)).filter (fun m ↦ !f.answers m.1) =
        ms.map fun m ↦ (m.1, m.2.tree) := by
  have hanswers : ∀ m ∈ ms.map fun m ↦ (m.1, m.2.tree), f.answers m.1 = false :=
    List.forall_mem_map.mpr fun m hm ↦ by simpa using h.within hwithin m hm
  constructor
  · exact List.filter_eq_nil_iff.mpr fun m hm ↦ by simp [hanswers m hm]
  · exact List.filter_eq_self.mpr fun m hm ↦ by simp [hanswers m hm]

/-- Each field has the member of its name, and nothing is missing. -/
theorem Holds.picks (h : fields.Holds depth ms t) (hapart : fields.Apart) :
    fields.Picks (ms.map fun m ↦ (m.1, m.2.tree)) t := by
  induction h with
  | none => exact List.forall_mem_nil _
  | @present α σ τ f rest v a ms t h hrest ih =>
    obtain ⟨hwithin, hapart⟩ := hapart
    obtain ⟨hanswers, hothers⟩ := hrest.filter_answers hwithin
    refine ⟨?_, ?_⟩
    · rw [List.map_cons, List.filter_cons, if_pos f.answers_name, hanswers]
      exact .member h.decode_tree
    · rw [List.map_cons, List.filter_cons, if_neg (by simp [f.answers_name]), hothers]
      exact ih hapart
  | @absent α σ τ f rest a ms t h hrest ih =>
    obtain ⟨hwithin, hapart⟩ := hapart
    obtain ⟨hanswers, hothers⟩ := hrest.filter_answers hwithin
    refine ⟨?_, ?_⟩
    · rw [hanswers]
      exact .supplied (value?_of_supplies h)
    · rw [hothers]
      exact ih hapart

/-- A record is decoded from the object of its members. -/
theorem Holds.denotes {β : Type} (h : fields.Holds depth ms t) (hapart : fields.Apart)
    (record : String) (f : τ → β) :
    Denotes (fun node ↦ (fields.decode record node).map f) (depth + 1) (.object ms) (f t) := by
  have hrecord : Denotes (fields.decode record) (depth + 1) (.object ms) t := by
    refine ⟨.object h.readable, ?_⟩
    rw [tree, memberTrees_eq_map]
    have hdecode : fields.decode record (.object ((ms.map _).map named) .closed) = .ok t :=
      decode_object_eq_ok_iff.mpr (h.picks hapart)
    rwa [List.map_map] at hdecode
  exact hrecord.map f

end Fields

end Decode

end ItemSql.Json
