import ItemSql.Json.Decode
import ItemSql.Proofs.Results

/-!
# Records and what is found for their fields

A decoder of records takes the members of an object one after another and keeps what it has found.
What comes of it can be said without an order: each field has the one member that answers to it, or
none and then a value that stands in for it, and what no field answers to can be passed over
(`Fields.Picks`). Members with names of several fields belong to the first of these; where there are
no such names, each field can be looked for apart from the others (`Fields.PicksEach`).

In an array the fields stand in their order, and those at the end may be missing (`Fields.Lists`).
-/

namespace ItemSql.Json

/-! ## Results of decoding -/

theorem Ending.check_eq_ok_iff {ending : Ending} : ending.check = .ok () ↔ ending = .closed := by
  cases ending with
  | closed => exact iff_of_true rfl rfl
  | stopped f => exact iff_of_false nofun nofun
  | dangling f => exact iff_of_false nofun nofun

theorem Decode.mismatch_ne_ok {α : Type} {expected : String} {node : Node} {a : α} :
    mismatch expected node ≠ .ok a := by
  intro h
  unfold mismatch at h
  split at h
  case h_3 => split at h <;> cases h
  all_goals cases h

/-- A name is read where a whole string stands. -/
theorem Node.eq_string_of_name {n : Node} {name : String} (h : ofFault n.name = .ok name) :
    n = .string (.ok name) := by
  match n, h with
  | .string (.ok text), h => rw [Except.ok.inj h]
  | .string (.error fault), h => cases h
  | .cut ⟨read, skipped, remnant⟩, h => cases remnant <;> cases h
  | .null, h | .bool _, h | .number _, h | .array _ _, h | .object _ _, h => cases h

namespace Decode

theorem string_eq_ok_iff {node : Node} {text : String} :
    string node = .ok text ↔ node = .string (.ok text) := by
  constructor
  · intro h
    unfold string at h
    split at h
    · rename_i found
      cases found with
      | error fault => cases h
      | ok text' => rw [Except.ok.inj h]
    · exact absurd h mismatch_ne_ok
  · rintro rfl
    rfl

theorem unit_eq_ok_iff {node : Node} : unit node = .ok () ↔ node = .null := by
  constructor
  · intro h
    unfold unit at h
    split at h
    · rfl
    · exact absurd h mismatch_ne_ok
  · rintro rfl
    rfl

theorem optional_eq_ok_iff {α : Type} {decode : Decoder α} {node : Node} {a? : Option α}
    (h : node.fault? = none) :
    optional decode node = .ok a? ↔
      node = .null ∧ a? = none ∨ node ≠ .null ∧ ∃ a, decode node = .ok a ∧ some a = a? := by
  match node, h with
  | .null, _ => simp [optional, eq_comm]
  | .bool _, _ | .number _, _ | .string _, _ | .array _ _, _ | .object _ _, _ =>
    simp [optional, map_eq_ok_iff]

theorem list_eq_ok_iff {α : Type} {decode : Decoder α} {node : Node} {as : List α} :
    list decode node = .ok as ↔ ∃ nodes, node = .array nodes .closed ∧
      List.Forall₂ (fun v a ↦ decode v = .ok a) nodes as := by
  constructor
  · intro h
    unfold list at h
    split at h
    · rename_i nodes ending
      obtain ⟨as', hvalues, h⟩ := bind_eq_ok_iff.mp h
      obtain ⟨⟨⟩, hending, h⟩ := bind_eq_ok_iff.mp h
      obtain rfl := Ending.check_eq_ok_iff.mp hending
      obtain rfl := Except.ok.inj h
      exact ⟨nodes, rfl, mapM_eq_ok_iff.mp hvalues⟩
    · exact absurd h mismatch_ne_ok
  · rintro ⟨nodes, rfl, h⟩
    exact bind_eq_ok_iff.mpr ⟨as, mapM_eq_ok_iff.mpr h, rfl⟩

/-! ## Fields -/

namespace Field

variable {α : Type} {name other : String} {decode : Decoder α}

theorem answers_name (f : Field α) : f.answers f.name = true := by
  simp [answers]

@[simp] theorem answers_required :
    (required name decode).answers other = decide (other = name) :=
  Bool.or_false _

@[simp] theorem answers_maybe : (maybe name decode).answers other = decide (other = name) :=
  Bool.or_false _

@[simp] theorem answers_defaulted {a : α} :
    (defaulted name a decode).answers other = decide (other = name) :=
  Bool.or_false _

end Field

/-! ## What is found -/

/-- The value that stands in for a field that an object does not have. -/
def Missing.value? {α : Type} : Missing α → Option α
  | .refused => none
  | .inObject a => some a
  | .anywhere a => some a

/-- The value of a field, given the members that answer to it. -/
inductive Field.Found {α : Type} (f : Field α) : List (String × Node) → α → Prop
  | supplied {a : α} (h : f.missing.value? = some a) : f.Found [] a
  | member {name : String} {v : Node} {a : α} (h : f.decode v = .ok a) : f.Found [(name, v)] a

namespace Fields

variable {α σ τ : Type}

/-- The members of an object make a record. -/
def Picks {σ τ : Type} : Fields σ τ → List (String × Node) → τ → Prop
  | .none, members, () => ∀ m ∈ members, m.2.fault? = Option.none
  | .field f rest, members, (a, others) =>
    f.Found (members.filter fun m ↦ f.answers m.1) a ∧
      rest.Picks (members.filter fun m ↦ !f.answers m.1) others

/-- The elements of an array make a record. -/
def Lists {σ τ : Type} : Fields σ τ → List Node → τ → Prop
  | .none, values, () => values = []
  | .field f rest, [], (a, others) => f.missing = .anywhere a ∧ rest.Lists [] others
  | .field f rest, v :: vs, (a, others) => f.decode v = .ok a ∧ rest.Lists vs others

/-! ## Objects -/

/-- A member whose name is whole. -/
def named (m : String × Node) : Node × Node :=
  (.string (.ok m.1), m.2)

theorem named_injective : Function.Injective named := by
  rintro ⟨name, v⟩ ⟨name', v'⟩ ⟨⟩
  rfl

variable {f : Field α} {rest : Fields σ τ} {members : List (String × Node)}

/-- Taking members may find the value of a field, but not twice. -/
inductive Takes (f : Field α) : List (String × Node) → Option α → Option α → Prop
  | nothing (found : Option α) : Takes f [] found found
  | member {name : String} {v : Node} {a : α} (h : f.decode v = .ok a) :
      Takes f [(name, v)] Option.none (some a)

theorem members_cons (fields : Fields σ τ) (name : String) (v : Node)
    (members : List (Node × Node)) (found : σ) :
    fields.members (named (name, v) :: members) found =
      fields.member name v found >>= fields.members members :=
  rfl

theorem members_none_eq_ok_iff :
    Fields.none.members (members.map named) () = .ok () ↔
      ∀ m ∈ members, m.2.fault? = Option.none := by
  induction members with
  | nil => exact iff_of_true rfl (List.forall_mem_nil _)
  | cons m ms ih =>
    rw [List.map_cons, members_cons, bind_eq_ok_iff, List.forall_mem_cons, ← ih, member]
    cases m.2.fault? with
    | none => exact ⟨fun ⟨_, _, h⟩ ↦ ⟨rfl, h⟩, fun h ↦ ⟨(), rfl, h.2⟩⟩
    | some fault => exact iff_of_false (by rintro ⟨_, ⟨⟩, -⟩) (fun h ↦ nomatch h.1)

theorem member_field (name : String) (v : Node) (found : Option α) (others : σ) :
    (Fields.field f rest).member name v (found, others) =
      if f.answers name = true then
        match found with
        | some _ => .error (.duplicateField f.name)
        | Option.none => (f.decode v).map fun a ↦ (some a, others)
      else (rest.member name v others).map fun others ↦ (found, others) :=
  rfl

/-- The members that answer to a field do not matter to the others, and the others not to it. -/
theorem members_field_eq_ok_iff {found found' : Option α} {others others' : σ} :
    (Fields.field f rest).members (members.map named) (found, others) = .ok (found', others') ↔
      Takes f (members.filter fun m ↦ f.answers m.1) found found' ∧
        rest.members ((members.filter fun m ↦ !f.answers m.1).map named) others = .ok others' := by
  induction members generalizing found others with
  | nil =>
    constructor
    · rintro ⟨⟩
      exact ⟨.nothing _, rfl⟩
    · rintro ⟨⟨⟩, ⟨⟩⟩
      rfl
  | cons m ms ih =>
    obtain ⟨name, v⟩ := m
    rw [List.map_cons, members_cons, bind_eq_ok_iff, member_field]
    cases hname : f.answers name with
    | true =>
      rw [if_pos rfl, List.filter_cons, if_pos hname, List.filter_cons, if_neg (by simp [hname])]
      constructor
      · rintro ⟨⟨found'', others''⟩, htaken, h⟩
        cases found with
        | some a => cases htaken
        | none =>
          cases hv : f.decode v with
          | error e =>
            rw [hv] at htaken
            cases htaken
          | ok a =>
            rw [hv] at htaken
            obtain ⟨rfl, rfl⟩ := Prod.mk.inj (Except.ok.inj htaken)
            obtain ⟨htakes, hrest⟩ := ih.mp h
            generalize hfilter : ms.filter (fun m ↦ f.answers m.1) = filtered at htakes
            cases htakes
            exact ⟨.member hv, hrest⟩
      · rintro ⟨htakes, hrest⟩
        generalize hfilter : ms.filter (fun m ↦ f.answers m.1) = filtered at htakes
        cases htakes with
        | member hv =>
          refine ⟨(some _, others), by rw [hv]; rfl, ih.mpr ⟨?_, hrest⟩⟩
          rw [hfilter]
          exact .nothing _
    | false =>
      rw [if_neg Bool.false_ne_true, List.filter_cons, if_neg (by simp [hname]), List.filter_cons,
        if_pos (by simp [hname]), List.map_cons, members_cons]
      constructor
      · rintro ⟨⟨found'', others''⟩, htaken, h⟩
        cases hmember : rest.member name v others with
        | error e =>
          rw [hmember] at htaken
          cases htaken
        | ok others₁ =>
          rw [hmember] at htaken
          obtain ⟨rfl, rfl⟩ := Prod.mk.inj (Except.ok.inj htaken)
          exact ih.mp h
      · rintro ⟨htakes, hrest⟩
        obtain ⟨others₁, hmember, hrest⟩ := bind_eq_ok_iff.mp hrest
        exact ⟨(found, others₁), by rw [hmember]; rfl, ih.mpr ⟨htakes, hrest⟩⟩

theorem finish_field (found : Option α) (others : σ) :
    (Fields.field f rest).finish (found, others) = do
      let a ← match found, f.missing with
        | some a, _ => .ok a
        | Option.none, .inObject a => .ok a
        | Option.none, .anywhere a => .ok a
        | Option.none, .refused => .error (.missingField f.name)
      return (a, ← rest.finish others) :=
  rfl

/-- A field has the value that was found for it, or else the one that stands in. -/
theorem finish_field_eq_ok_iff {found : Option α} {others : σ} {a : α} {values : τ} :
    (Fields.field f rest).finish (found, others) = .ok (a, values) ↔
      found.or f.missing.value? = some a ∧ rest.finish others = .ok values := by
  have hpair (a' : α) : (rest.finish others >>= fun values' ↦ pure (a', values')) =
      .ok (a, values) ↔ some a' = some a ∧ rest.finish others = .ok values := by
    rw [bind_eq_ok_iff]
    constructor
    · rintro ⟨values', h, ⟨⟩⟩
      exact ⟨rfl, h⟩
    · rintro ⟨⟨⟩, h⟩
      exact ⟨values, h, rfl⟩
  rw [finish_field]
  cases found with
  | some a' => exact hpair a'
  | none =>
    cases f.missing with
    | refused => exact iff_of_false nofun nofun
    | inObject a' => exact hpair a'
    | anywhere a' => exact hpair a'

/-- A field is found among members if none of them answers to it and a value stands in, or if one of
them does and holds a value. -/
theorem found_filter_iff {a : α} :
    f.Found (members.filter fun m ↦ f.answers m.1) a ↔
      (∀ m ∈ members, ¬ f.answers m.1) ∧ f.missing.value? = some a ∨
        ∃ before name v after, members = before ++ (name, v) :: after ∧ f.answers name = true ∧
          (∀ m ∈ before ++ after, ¬ f.answers m.1) ∧ f.decode v = .ok a := by
  constructor
  · intro h
    generalize hfilter : members.filter (fun m ↦ f.answers m.1) = filtered at h
    cases h with
    | supplied h => exact .inl ⟨List.filter_eq_nil_iff.mp hfilter, h⟩
    | @member name v a h =>
      obtain ⟨before, after, hmembers, hbefore, hname, hafter⟩ := List.filter_eq_cons_iff.mp hfilter
      exact .inr ⟨before, name, v, after, hmembers, hname,
        List.forall_mem_append.mpr ⟨hbefore, List.filter_eq_nil_iff.mp hafter⟩, h⟩
  · rintro (⟨hnone, h⟩ | ⟨before, name, v, after, rfl, hname, hothers, h⟩)
    · rw [List.filter_eq_nil_iff.mpr hnone]
      exact .supplied h
    · obtain ⟨hbefore, hafter⟩ := List.forall_mem_append.mp hothers
      rw [List.filter_append, List.filter_cons, if_pos hname, List.filter_eq_nil_iff.mpr hbefore,
        List.filter_eq_nil_iff.mpr hafter]
      exact .member h

theorem found_iff {a : α} :
    f.Found members a ↔
      ∃ found, Takes f members Option.none found ∧ found.or f.missing.value? = some a := by
  constructor
  · rintro (h | h)
    · exact ⟨_, .nothing _, h⟩
    · exact ⟨_, .member h, rfl⟩
  · rintro ⟨_, _ | h, hvalue⟩
    · exact .supplied hvalue
    · obtain rfl := Option.some.inj hvalue
      exact .member h

/-- An object is decoded as the record that its members make. -/
theorem members_finish_eq_ok_iff {σ τ : Type} (fields : Fields σ τ)
    {members : List (String × Node)} {t : τ} :
    (∃ found, fields.members (members.map named) fields.start = .ok found ∧
      fields.finish found = .ok t) ↔ fields.Picks members t := by
  induction fields generalizing members with
  | none =>
    rw [Picks, ← members_none_eq_ok_iff]
    exact ⟨fun ⟨_, h, _⟩ ↦ h, fun h ↦ ⟨(), h, rfl⟩⟩
  | field f rest ih =>
    obtain ⟨a, values⟩ := t
    rw [Picks, ← ih, found_iff]
    constructor
    · rintro ⟨⟨found, others⟩, htaken, hfinished⟩
      obtain ⟨htakes, hmembers⟩ := members_field_eq_ok_iff.mp htaken
      obtain ⟨hvalue, hrest⟩ := finish_field_eq_ok_iff.mp hfinished
      exact ⟨⟨found, htakes, hvalue⟩, others, hmembers, hrest⟩
    · rintro ⟨⟨found, htakes, hvalue⟩, others, hmembers, hrest⟩
      exact ⟨(found, others), members_field_eq_ok_iff.mpr ⟨htakes, hmembers⟩,
        finish_field_eq_ok_iff.mpr ⟨hvalue, hrest⟩⟩

theorem decode_object_eq_ok_iff {record : String} {fields : Fields σ τ} {t : τ} :
    decode record fields (.object (members.map named) .closed) = .ok t ↔
      fields.Picks members t := by
  rw [← members_finish_eq_ok_iff, decode, bind_eq_ok_iff]
  rfl

theorem eq_map_named_of_members_eq_ok {fields : Fields σ τ} {ms : List (Node × Node)}
    {found found' : σ} (h : fields.members ms found = .ok found') :
    ∃ members : List (String × Node), ms = members.map named := by
  induction ms generalizing found with
  | nil => exact ⟨[], rfl⟩
  | cons m ms ih =>
    obtain ⟨n, v⟩ := m
    obtain ⟨name, hname, h⟩ := bind_eq_ok_iff.mp h
    obtain ⟨found₁, -, h⟩ := bind_eq_ok_iff.mp h
    obtain ⟨members, rfl⟩ := ih h
    exact ⟨(name, v) :: members, by rw [Node.eq_string_of_name hname]; rfl⟩

/-- Every name that a field answers to is one of those meant. -/
@[simp] def Within (meant : String → Bool) {σ τ : Type} : Fields σ τ → Prop
  | .none => True
  | .field f rest => (∀ name, f.answers name = true → meant name = true) ∧ rest.Within meant

/-- Members that no field answers to do not matter, if nothing is wrong with them. -/
theorem picks_filter_iff {σ τ : Type} {fields : Fields σ τ} {meant : String → Bool}
    {members : List (String × Node)} {t : τ} (h : fields.Within meant)
    (hclean : ∀ m ∈ members, m.2.fault? = Option.none) :
    fields.Picks (members.filter fun m ↦ meant m.1) t ↔ fields.Picks members t := by
  induction fields generalizing members with
  | none => exact iff_of_true (fun m hm ↦ hclean m (List.mem_of_mem_filter hm)) hclean
  | field f rest ih =>
    obtain ⟨hf, hrest⟩ := h
    obtain ⟨a, others⟩ := t
    have hanswers : (members.filter fun m ↦ meant m.1).filter (fun m ↦ f.answers m.1) =
        members.filter fun m ↦ f.answers m.1 := by
      rw [List.filter_filter]
      refine List.filter_congr fun m _ ↦ ?_
      cases hm : f.answers m.1 with
      | true => rw [hf m.1 hm, Bool.and_true]
      | false => rfl
    rw [Picks, Picks, hanswers, List.filter_comm]
    exact and_congr_right fun _ ↦ ih hrest fun m hm ↦ hclean m (List.mem_of_mem_filter hm)

/-- No two fields answer to one name. -/
@[simp] def Apart {σ τ : Type} : Fields σ τ → Prop
  | .none => True
  | .field f rest => rest.Within (fun name ↦ !f.answers name) ∧ rest.Apart

/-- The members make a record, each field apart from the others. -/
def PicksEach {σ τ : Type} : Fields σ τ → List (String × Node) → τ → Prop
  | .none, _, () => True
  | .field f rest, members, (a, others) =>
    f.Found (members.filter fun m ↦ f.answers m.1) a ∧ rest.PicksEach members others

theorem picks_iff_picksEach {σ τ : Type} {fields : Fields σ τ} {members : List (String × Node)}
    {t : τ} (h : fields.Apart) (hclean : ∀ m ∈ members, m.2.fault? = Option.none) :
    fields.Picks members t ↔ fields.PicksEach members t := by
  induction fields with
  | none => exact iff_of_true hclean trivial
  | field f rest ih =>
    obtain ⟨a, others⟩ := t
    obtain ⟨hwithin, hrest⟩ := h
    rw [Picks, PicksEach, picks_filter_iff hwithin hclean, ih hrest]

/-! ## Arrays -/

theorem items_closed_eq_ok_iff {σ τ : Type} {record : String} {total taken : Nat}
    (fields : Fields σ τ) {values : List Node} {t : τ} :
    items record total taken .closed fields values = .ok t ↔ fields.Lists values t := by
  induction fields generalizing taken values with
  | none =>
    cases values with
    | nil => exact iff_of_true rfl rfl
    | cons v vs => exact iff_of_false nofun nofun
  | field f rest ih =>
    obtain ⟨a, others⟩ := t
    have hpair (a' : _) (vs : List Node) :
        (items record total (taken + 1) .closed rest vs >>= fun others' ↦ pure (a', others')) =
          .ok (a, others) ↔ a' = a ∧ rest.Lists vs others := by
      rw [bind_eq_ok_iff, ← @ih (taken + 1)]
      constructor
      · rintro ⟨others', h, ⟨⟩⟩
        exact ⟨rfl, h⟩
      · rintro ⟨rfl, h⟩
        exact ⟨others, h, rfl⟩
    cases values with
    | nil =>
      rw [items, Lists]
      cases f.missing with
      | refused => exact iff_of_false nofun nofun
      | inObject a' => exact iff_of_false nofun nofun
      | anywhere a' =>
        refine (hpair a' []).trans (and_congr_left fun _ ↦ ?_)
        exact ⟨congrArg _, fun h ↦ Missing.anywhere.inj h⟩
    | cons v vs =>
      rw [items, Lists, bind_eq_ok_iff]
      constructor
      · rintro ⟨a', ha', h⟩
        obtain ⟨rfl, hrest⟩ := (hpair a' vs).mp h
        exact ⟨ha', hrest⟩
      · rintro ⟨ha, hrest⟩
        exact ⟨a, ha, (hpair a vs).mpr ⟨rfl, hrest⟩⟩

theorem eq_closed_of_items_eq_ok {σ τ : Type} {record : String} {total taken : Nat}
    {ending : Ending} {fields : Fields σ τ} {values : List Node} {t : τ}
    (h : items record total taken ending fields values = .ok t) : ending = .closed := by
  induction fields generalizing taken values with
  | none =>
    cases values with
    | nil =>
      cases ending with
      | closed => rfl
      | stopped fault => cases fault <;> cases h
      | dangling fault => cases h
    | cons v vs => cases h
  | field f rest ih =>
    cases values with
    | nil =>
      obtain ⟨⟨⟩, hending, -⟩ := bind_eq_ok_iff.mp h
      cases ending with
      | closed => rfl
      | stopped fault => cases hending
      | dangling fault => cases hending
    | cons v vs =>
      obtain ⟨a, -, h⟩ := bind_eq_ok_iff.mp h
      obtain ⟨others, hothers, -⟩ := bind_eq_ok_iff.mp h
      exact ih hothers

theorem decode_array_eq_ok_iff {record : String} {fields : Fields σ τ} {values : List Node}
    {t : τ} : decode record fields (.array values .closed) = .ok t ↔ fields.Lists values t :=
  items_closed_eq_ok_iff fields

/-! ## Both -/

/-- What a record is decoded from. -/
theorem decode_eq_ok_iff {record : String} {fields : Fields σ τ} {node : Node} {t : τ} :
    decode record fields node = .ok t ↔
      (∃ members, node = .object (members.map named) .closed ∧ fields.Picks members t) ∨
        ∃ values, node = .array values .closed ∧ fields.Lists values t := by
  constructor
  · intro h
    unfold decode at h
    split at h
    · obtain ⟨found, hfound, h⟩ := bind_eq_ok_iff.mp h
      obtain ⟨⟨⟩, hending, hfinish⟩ := bind_eq_ok_iff.mp h
      obtain rfl := Ending.check_eq_ok_iff.mp hending
      obtain ⟨members, rfl⟩ := eq_map_named_of_members_eq_ok hfound
      exact .inl ⟨members, rfl, (members_finish_eq_ok_iff fields).mp ⟨found, hfound, hfinish⟩⟩
    · obtain rfl := eq_closed_of_items_eq_ok h
      exact .inr ⟨_, rfl, (items_closed_eq_ok_iff fields).mp h⟩
    · exact absurd h mismatch_ne_ok
  · rintro (⟨members, rfl, h⟩ | ⟨values, rfl, h⟩)
    · exact decode_object_eq_ok_iff.mpr h
    · exact decode_array_eq_ok_iff.mpr h

/-! ## Records without a fault -/

/-- Only values without a fault are decoded. -/
@[simp] def Clean {σ τ : Type} : Fields σ τ → Prop
  | .none => True
  | .field f rest => (∀ v a, f.decode v = .ok a → v.fault? = Option.none) ∧ rest.Clean

theorem Picks.fault?_eq_none {σ τ : Type} {fields : Fields σ τ} {members : List (String × Node)}
    {t : τ} (h : fields.Picks members t) (hclean : fields.Clean) :
    ∀ m ∈ members, m.2.fault? = Option.none := by
  induction fields generalizing members with
  | none => exact h
  | field f rest ih =>
    obtain ⟨a, others⟩ := t
    obtain ⟨hfound, hrest⟩ := h
    obtain ⟨hf, hclean⟩ := hclean
    intro m hm
    cases hname : f.answers m.1 with
    | false => exact ih hrest hclean m (List.mem_filter.mpr ⟨hm, by rw [hname]; rfl⟩)
    | true =>
      have hmem : m ∈ members.filter fun m ↦ f.answers m.1 := List.mem_filter.mpr ⟨hm, hname⟩
      generalize members.filter (fun m ↦ f.answers m.1) = filtered at hfound hmem
      cases hfound with
      | supplied => cases hmem
      | member h =>
        obtain rfl := List.mem_singleton.mp hmem
        exact hf _ a h

theorem Lists.fault?_eq_none {σ τ : Type} {fields : Fields σ τ} {values : List Node} {t : τ}
    (h : fields.Lists values t) (hclean : fields.Clean) : ∀ v ∈ values, v.fault? = Option.none := by
  induction fields generalizing values with
  | none =>
    obtain rfl : values = [] := h
    exact List.forall_mem_nil _
  | field f rest ih =>
    obtain ⟨a, others⟩ := t
    obtain ⟨hf, hclean⟩ := hclean
    cases values with
    | nil => exact List.forall_mem_nil _
    | cons v vs => exact List.forall_mem_cons.mpr ⟨hf v a h.1, ih h.2 hclean⟩

/-! ## Fields that may be left out -/

/-- What members have under some names: nothing, or one value. -/
inductive OneOf (names : List String) (members : List (String × Node)) : Option Node → Prop
  | absent (h : ∀ m ∈ members, m.1 ∉ names) : OneOf names members Option.none
  | present {name : String} {before after : List (String × Node)} {v : Node} (hname : name ∈ names)
      (hmembers : members = before ++ (name, v) :: after)
      (hothers : ∀ m ∈ before ++ after, m.1 ∉ names) : OneOf names members (some v)

/-- One member and others with other names, in any order. -/
theorem OneOf.of_perm {names : List String} {name : String} {v : Node}
    {members others : List (String × Node)} (h : members.Perm ((name, v) :: others))
    (hname : name ∈ names) (hothers : ∀ m ∈ others, m.1 ∉ names) :
    OneOf names members (some v) := by
  obtain ⟨before, after, rfl⟩ := List.append_of_mem (h.mem_iff.mpr List.mem_cons_self)
  have hrest : (before ++ after).Perm others := (List.perm_middle.symm.trans h).cons_inv
  exact .present hname rfl fun m hm ↦ hothers m (hrest.mem_iff.mp hm)

/-- A member with one of the names is the one. -/
theorem OneOf.eq_some_of_mem {names : List String} {members : List (String × Node)}
    {v? : Option Node} {name : String} {v : Node} (h : OneOf names members v?)
    (hmem : (name, v) ∈ members) (hname : name ∈ names) : v? = some v := by
  cases h with
  | absent h => exact absurd hname (h _ hmem)
  | present hname' hmembers hothers =>
    rw [hmembers] at hmem
    rcases List.mem_append.mp hmem with hmem | hmem
    · exact absurd hname (hothers _ (List.mem_append_left _ hmem))
    · rcases List.mem_cons.mp hmem with heq | hmem
      · rw [(Prod.mk.inj heq).2]
      · exact absurd hname (hothers _ (List.mem_append_right _ hmem))

/-- There are no two members with one of the names. -/
theorem OneOf.not_twice {names : List String} {before between after : List (String × Node)}
    {v? : Option Node} {name name' : String} {v v' : Node}
    (h : OneOf names (before ++ (name, v) :: (between ++ (name', v') :: after)) v?)
    (hname : name ∈ names) (hname' : name' ∈ names) : False := by
  have hfilter {ms : List (String × Node)} (hms : ∀ m ∈ ms, m.1 ∉ names) :
      ms.filter (fun m ↦ decide (m.1 ∈ names)) = [] :=
    List.filter_eq_nil_iff.mpr fun m hm ↦ by simpa using hms m hm
  have hle : ((before ++ (name, v) :: (between ++ (name', v') :: after)).filter
      fun m ↦ decide (m.1 ∈ names)).length ≤ 1 := by
    cases h with
    | absent h => rw [hfilter h]; exact Nat.zero_le 1
    | present hname'' hmembers hothers =>
      obtain ⟨hbefore, hafter⟩ := List.forall_mem_append.mp hothers
      rw [hmembers, List.filter_append, hfilter hbefore, List.filter_cons,
        if_pos (decide_eq_true hname''), hfilter hafter]
      exact Nat.le_refl 1
  simp only [List.filter_append, List.filter_cons, hname, hname', decide_true, if_true,
    List.length_append, List.length_cons] at hle
  omega

/-- What members have for a name: nothing, or one value. -/
inductive Sole (members : List (String × Node)) (name : String) : Option Node → Prop
  | absent (h : ∀ m ∈ members, m.1 ≠ name) : Sole members name Option.none
  | present {before after : List (String × Node)} {v : Node}
      (hmembers : members = before ++ (name, v) :: after)
      (hothers : ∀ m ∈ before ++ after, m.1 ≠ name) : Sole members name (some v)

/-- The value of a field that may be left out, by what there is for it. -/
inductive Slot {α : Type} (form : Node → α → Prop) (default : α) : Option Node → α → Prop
  | absent : Slot form default Option.none default
  | present {v : Node} {a : α} (h : form v a) : Slot form default (some v) a

variable {name : String} {default a : α} {decode : Decoder α} {v? : Option Node}

theorem Slot.congr {form form' : Node → α → Prop}
    (h : ∀ v, v? = some v → ∀ a, form v a ↔ form' v a) :
    Slot form default v? a ↔ Slot form' default v? a := by
  constructor
  · rintro (_ | ha)
    · exact .absent
    · exact .present ((h _ rfl _).mp ha)
  · rintro (_ | ha)
    · exact .absent
    · exact .present ((h _ rfl _).mpr ha)

theorem Sole.fault?_eq_none {v : Node} (h : Sole members name v?)
    (hclean : ∀ m ∈ members, m.2.fault? = Option.none) (hv : v? = some v) :
    v.fault? = Option.none := by
  subst hv
  cases h with
  | present hmembers => exact hclean (name, v) (by simp [hmembers])

/-- A field that may be left out, under any of its names. -/
theorem found_oneOf_iff {f : Field α} (hmissing : f.missing = .anywhere default) :
    f.Found (members.filter fun m ↦ f.answers m.1) a ↔
      ∃ v?, OneOf (f.name :: f.aliases) members v? ∧
        Slot (fun v a ↦ f.decode v = .ok a) default v? a := by
  have hanswers (name : String) : f.answers name = true ↔ name ∈ f.name :: f.aliases := by
    simp [Field.answers]
  have hvalue : f.missing.value? = some a ↔ default = a := by
    rw [hmissing]
    exact Option.some_inj
  rw [found_filter_iff, hvalue]
  simp only [hanswers]
  constructor
  · rintro (⟨hnone, rfl⟩ | ⟨before, name, v, after, hmembers, hname, hothers, h⟩)
    · exact ⟨_, .absent hnone, .absent⟩
    · exact ⟨_, .present hname hmembers hothers, .present h⟩
  · rintro ⟨_, hothers | ⟨hname, hmembers, hothers⟩, hslot⟩
    · cases hslot
      exact .inl ⟨hothers, rfl⟩
    · cases hslot with
      | present h => exact .inr ⟨_, _, _, _, hmembers, hname, hothers, h⟩

theorem oneOf_singleton_iff : OneOf [name] members v? ↔ Sole members name v? := by
  constructor
  · rintro (h | ⟨hname, hmembers, hothers⟩)
    · exact .absent fun m hm ↦ mt List.mem_singleton.mpr (h m hm)
    · obtain rfl := List.mem_singleton.mp hname
      exact .present hmembers fun m hm ↦ mt List.mem_singleton.mpr (hothers m hm)
  · rintro (h | ⟨hmembers, hothers⟩)
    · exact .absent fun m hm ↦ mt List.mem_singleton.mp (h m hm)
    · exact .present List.mem_cons_self hmembers fun m hm ↦ mt List.mem_singleton.mp (hothers m hm)

theorem found_defaulted_iff :
    (Field.defaulted name default decode).Found
        (members.filter fun m ↦ (Field.defaulted name default decode).answers m.1) a ↔
      ∃ v?, Sole members name v? ∧ Slot (fun v a ↦ decode v = .ok a) default v? a := by
  rw [found_oneOf_iff rfl]
  exact exists_congr fun v? ↦ and_congr_left fun _ ↦ oneOf_singleton_iff

/-- An array has its next value for a field that may be left out, if it has one. -/
theorem lists_field_iff {f : Field α} (hmissing : f.missing = .anywhere default)
    {values : List Node} {others : τ} :
    (Fields.field f rest).Lists values (a, others) ↔
      Slot (fun v a ↦ f.decode v = .ok a) default values.head? a ∧
        rest.Lists values.tail others := by
  cases values with
  | nil =>
    rw [Lists, hmissing]
    refine and_congr_left fun _ ↦ ⟨?_, ?_⟩
    · rintro ⟨⟩
      exact .absent
    · rintro ⟨⟩
      rfl
  | cons v vs =>
    refine and_congr_left fun _ ↦ ⟨fun h ↦ .present h, ?_⟩
    rintro (_ | h)
    exact h

theorem lists_defaulted_iff {values : List Node} {others : τ} :
    (Fields.field (.defaulted name default decode) rest).Lists values (a, others) ↔
      Slot (fun v a ↦ decode v = .ok a) default values.head? a ∧
        rest.Lists values.tail others :=
  lists_field_iff rfl

end Fields

end Decode

end ItemSql.Json
