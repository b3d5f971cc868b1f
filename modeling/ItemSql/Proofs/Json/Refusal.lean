import ItemSql.Json.Place
import ItemSql.Proofs.Json.Reading
import ItemSql.Proofs.Json.Record

/-!
# What is wrong with a text that is JSON

A text that is JSON throughout may still be refused for what it says, and then the error is reported
in words. Most faults of texts have none. They are not needed: the tree of such a text is `Legible`,
and whatever decoder walks it, what it answers is `Worded`. Two faults remain that a decoder finds
where the text has none. It may want the name of a member of a vocabulary and find something else,
or find more elements in an array than a record has fields.
-/

namespace ItemSql.Json

variable {α β : Type}

/-! ## Trees of texts that are JSON -/

open Decode.Fields (named) in
/-- A value that can be read in all its parts. -/
inductive Legible : Node → Prop
  | null : Legible .null
  | bool (b : Bool) : Legible (.bool b)
  | number {n : Numeral} (h : n.value? ≠ none) : Legible (.number n)
  | string (text : String) : Legible (.string (.ok text))
  | array {items : List Node} (h : ∀ v ∈ items, Legible v) : Legible (.array items .closed)
  | object {members : List (String × Node)} (h : ∀ m ∈ members, Legible m.2) :
      Legible (.object (members.map named) .closed)

/-- Nothing is wrong with a value that can be read. -/
theorem Legible.fault?_eq_none {node : Node} (h : Legible node) : node.fault? = none := by
  induction h with
  | null | bool | number | string => rfl
  | array _ ih => exact Node.fault?_array_iff.mpr ih
  | object _ ih => exact Node.fault?_object_iff.mpr (List.forall_mem_map.mpr ih)

theorem Ending.eq_closed_of_orFault {ending : Ending} (h : Node.orFault ending.fault? = .ok ()) :
    ending = .closed := by
  cases ending with
  | closed => rfl
  | stopped f | dangling f => cases h

theorem Node.eq_string_of_name_eq_ok {n : Node} {name : String} (h : n.name = .ok name) :
    n = .string (.ok name) :=
  eq_string_of_name (by rw [h]; rfl)

mutual

/-- What is read as a value can be read in all its parts. -/
theorem Node.legible_of_value {depth : Nat} {v : Json} :
    ∀ {node : Node}, node.value depth = .ok v → Legible node
  | .null, _ => .null
  | .bool b, _ => .bool b
  | .number n, h => by
    refine .number fun hnone ↦ ?_
    rw [value, ofNumber, hnone] at h
    cases h
  | .string (.ok text), _ => .string text
  | .array items ending, h => by
    cases depth with
    | zero => cases h
    | succ depth =>
      obtain ⟨vs, hvs, h⟩ := bind_eq_ok_iff.mp h
      obtain ⟨⟨⟩, hending, -⟩ := bind_eq_ok_iff.mp h
      obtain rfl := Ending.eq_closed_of_orFault hending
      exact .array (legible_of_values hvs)
  | .object members ending, h => by
    cases depth with
    | zero => cases h
    | succ depth =>
      obtain ⟨vs, hvs, h⟩ := bind_eq_ok_iff.mp h
      obtain ⟨⟨⟩, hending, -⟩ := bind_eq_ok_iff.mp h
      obtain rfl := Ending.eq_closed_of_orFault hending
      obtain ⟨members, rfl, hmembers⟩ := legible_of_memberValues hvs
      exact .object hmembers

theorem Node.legible_of_values {depth : Nat} :
    ∀ {items : List Node} {vs : List Json}, values depth items = .ok vs →
      ∀ v ∈ items, Legible v
  | [], _, _ => List.forall_mem_nil _
  | item :: items, vs, h => by
    obtain ⟨v, hv, h⟩ := bind_eq_ok_iff.mp h
    obtain ⟨vs, hvs, -⟩ := bind_eq_ok_iff.mp h
    exact List.forall_mem_cons.mpr ⟨legible_of_value hv, legible_of_values hvs⟩

theorem Node.legible_of_memberValues {depth : Nat} :
    ∀ {members : List (Node × Node)} {vs : List (String × Json)},
      memberValues depth members = .ok vs →
        ∃ members' : List (String × Node), members = members'.map Decode.Fields.named ∧
          ∀ m ∈ members', Legible m.2
  | [], _, _ => ⟨[], rfl, List.forall_mem_nil _⟩
  | (n, item) :: members, vs, h => by
    obtain ⟨name, hname, h⟩ := bind_eq_ok_iff.mp h
    obtain ⟨v, hv, h⟩ := bind_eq_ok_iff.mp h
    obtain ⟨vs, hvs, -⟩ := bind_eq_ok_iff.mp h
    obtain ⟨members', rfl, hmembers⟩ := legible_of_memberValues hvs
    refine ⟨(name, item) :: members', ?_, List.forall_mem_cons.mpr ⟨legible_of_value hv, hmembers⟩⟩
    rw [Node.eq_string_of_name_eq_ok hname]
    rfl

end

/-! ## Results that can be put into words -/

/-- An error has words unless it is the fault of a text that is no JSON. -/
def DecodeError.HasWords : DecodeError → Prop
  | .fault .truncated | .fault .malformed => False
  | _ => True

/-- A result that can be put into words if it is an error. -/
def Worded : Decoded α → Prop
  | .ok _ => True
  | .error e => e.HasWords

theorem Worded.bind {x : Decoded α} {f : α → Decoded β} (hx : Worded x)
    (hf : ∀ a, x = .ok a → Worded (f a)) : Worded (x >>= f) := by
  cases x with
  | error e => exact hx
  | ok a => exact hf a rfl

theorem Worded.map {x : Decoded α} (hx : Worded x) (f : α → β) : Worded (x.map f) := by
  cases x with
  | error e => exact hx
  | ok a => trivial

theorem Worded.mapM {decode : Decoder α} {items : List Node}
    (h : ∀ v ∈ items, Worded (decode v)) : Worded (items.mapM decode) := by
  induction items with
  | nil => trivial
  | cons v vs ih =>
    obtain ⟨hv, hvs⟩ := List.forall_mem_cons.mp h
    rw [List.mapM_cons]
    exact hv.bind fun a _ ↦ (ih hvs).bind fun as _ ↦ trivial

/-- What the decoder answers on a text that is JSON can be put into words. -/
def WordsAll (decode : Decoder α) : Prop :=
  ∀ ⦃node : Node⦄, Legible node → Worded (decode node)

namespace WordsAll

variable {decode : Decoder α}

/-! ## Scalars -/

theorem mismatch (expected : String) : WordsAll (Decode.mismatch expected : Decoder α) := by
  intro node h
  cases h with
  | @number n h =>
    cases hvalue : n.value? with
    | none => exact absurd hvalue h
    | some value => cases value <;> simp [Decode.mismatch, hvalue, Worded, DecodeError.HasWords]
  | null | bool | string | array | object => trivial

/-- A decoder of values of one form leaves all others to `mismatch`. -/
theorem of_form (expected : String) (h : ∀ node, Legible node →
    Worded (decode node) ∨ decode node = Decode.mismatch expected node) : WordsAll decode := by
  intro node hnode
  obtain hworded | hmismatch := h node hnode
  · exact hworded
  · rw [hmismatch]
    exact mismatch expected hnode

theorem string : WordsAll Decode.string := by
  refine of_form "a string" fun node h ↦ ?_
  cases h with
  | string text => exact .inl trivial
  | null | bool | number | array | object => exact .inr rfl

theorem boolean : WordsAll Decode.boolean := by
  refine of_form "a boolean" fun node h ↦ ?_
  cases h with
  | bool b => exact .inl trivial
  | null | number | string | array | object => exact .inr rfl

theorem fixedWidth (ofInt? : Int → Option α) (expected : String) :
    WordsAll (Decode.fixedWidth ofInt? expected) := by
  refine of_form expected fun node h ↦ ?_
  cases h with
  | @number n h =>
    rw [Decode.fixedWidth]
    split
    · split
      · exact .inl trivial
      · exact .inl trivial
    · exact .inr rfl
  | null | bool | string | array | object => exact .inr rfl

theorem double : WordsAll Decode.double := by
  refine of_form "f64" fun node h ↦ ?_
  cases h with
  | @number n h =>
    rw [Decode.double]
    split
    · exact .inl trivial
    · exact .inl trivial
    · exact absurd ‹_› h
  | null | bool | string | array | object => exact .inr rfl

theorem unit : WordsAll Decode.unit := by
  refine of_form "unit" fun node h ↦ ?_
  cases h with
  | null => exact .inl trivial
  | bool | number | string | array | object => exact .inr rfl

/-! ## Decoders made of others -/

theorem map (h : WordsAll decode) (f : α → β) : WordsAll fun node ↦ (decode node).map f :=
  fun _ hnode ↦ (h hnode).map f

theorem list (h : WordsAll decode) : WordsAll (Decode.list decode) := by
  refine of_form "a sequence" fun node hnode ↦ ?_
  cases hnode with
  | array hitems =>
    refine .inl ?_
    rw [Decode.list]
    exact (Worded.mapM fun v hv ↦ h (hitems v hv)).bind fun as _ ↦ trivial
  | null | bool | number | string | object => exact .inr rfl

theorem optional (h : WordsAll decode) : WordsAll (Decode.optional decode) := by
  intro node hnode
  have hsome := (h hnode).map some
  cases hnode with
  | null => trivial
  | bool | number | string | array | object => exact hsome

theorem resolve (all : List α) (nameOf : α → String) (text : String) :
    Worded (Decode.variant.resolve all nameOf text) := by
  rw [Decode.variant.resolve]
  split <;> trivial

theorem variant (all : List α) (nameOf : α → String) : WordsAll (Decode.variant all nameOf) := by
  intro node hnode
  cases hnode with
  | string text => exact resolve all nameOf text
  | @object members hmembers =>
    cases members with
    | nil => trivial
    | cons m more =>
      have hcontent := unit (hmembers m List.mem_cons_self)
      refine (resolve all nameOf m.1).bind fun a _ ↦ hcontent.bind fun _ _ ↦ ?_
      cases more with
      | nil => trivial
      | cons _ _ => trivial
  | null | bool | number | array => trivial

end WordsAll

/-! ## Records -/

namespace Decode.Fields

/-- What is decoded for a field can be put into words. -/
inductive Words : {σ τ : Type} → Fields σ τ → Prop
  | none : Words .none
  | field {α σ τ : Type} {f : Field α} {rest : Fields σ τ} (h : WordsAll f.decode)
      (hrest : rest.Words) : Words (.field f rest)

variable {σ τ : Type} {fields : Fields σ τ}

theorem Words.member (h : fields.Words) {name : String} {v : Node} (hv : Legible v) (found : σ) :
    Worded (fields.member name v found) := by
  induction h with
  | none =>
    rw [Fields.member.eq_def]
    simp only [hv.fault?_eq_none]
    trivial
  | field hf _ ih =>
    obtain ⟨found, others⟩ := found
    rw [member_field]
    split
    · split
      · trivial
      · exact (hf hv).map _
    · exact (ih others).map _

theorem Words.members (h : fields.Words) {members : List (String × Node)}
    (hmembers : ∀ m ∈ members, Legible m.2) (found : σ) :
    Worded (fields.members (members.map named) found) := by
  induction members generalizing found with
  | nil => trivial
  | cons m ms ih =>
    obtain ⟨hm, hms⟩ := List.forall_mem_cons.mp hmembers
    rw [List.map_cons, members_cons]
    exact (h.member hm found).bind fun found _ ↦ ih hms found

theorem worded_finish (found : σ) : Worded (fields.finish found) := by
  induction fields with
  | none => trivial
  | @field α _ _ f rest ih =>
    obtain ⟨found?, others⟩ := found
    have hrest (a : α) : Worded (rest.finish others >>= fun others' ↦ .ok (a, others')) :=
      (ih others).bind fun _ _ ↦ trivial
    obtain ⟨name, aliases, missing, decode⟩ := f
    cases found? with
    | some a => exact hrest a
    | none =>
      cases missing with
      | refused => trivial
      | inObject a | anywhere a => exact hrest a

theorem Words.items (h : fields.Words) {record : String} {total taken : Nat} {values : List Node}
    (hvalues : ∀ v ∈ values, Legible v) :
    Worded (fields.items record total taken .closed values) := by
  induction h generalizing taken values with
  | none => cases values <;> trivial
  | @field _ _ _ f _ hf _ ih =>
    cases values with
    | nil =>
      rw [Fields.items]
      cases f.missing with
      | refused | inObject => trivial
      | anywhere a => exact (ih hvalues).bind fun _ _ ↦ trivial
    | cons v vs =>
      obtain ⟨hv, hvs⟩ := List.forall_mem_cons.mp hvalues
      exact (hf hv).bind fun a _ ↦ (ih hvs).bind fun _ _ ↦ trivial

/-- A record of fields that can be put into words is one that can. -/
theorem Words.decode (h : fields.Words) (record : String) : WordsAll (fields.decode record) := by
  refine .of_form ("struct " ++ record) fun node hnode ↦ ?_
  cases hnode with
  | object hmembers =>
    exact .inl ((h.members hmembers _).bind fun found _ ↦ worded_finish found)
  | array hvalues => exact .inl (h.items hvalues)
  | null | bool | number | string => exact .inr rfl

theorem Words.record {record : String} {f : τ → α} (h : fields.Words) :
    WordsAll fun node ↦ (fields.decode record node).map f :=
  (h.decode record).map f

end Decode.Fields

/-! ## Whole texts -/

/-- A text that is JSON is refused with an error that can be put into words. -/
theorem WordsAll.hasWords {decode : Decoder α} (h : WordsAll decode) {text : Text.Bytes}
    {json : Json} {e : DecodeError} (hjson : ofBytes text = .ok json)
    (he : Decode.bytes decode text = .error e) : e.HasWords := by
  rw [ofBytes] at hjson
  rw [Decode.bytes, Decode.glyphs] at he
  cases hread : Node.ofGlyphs (Text.Glyph.ofBytes text) with
  | mk node clean =>
  rw [hread] at hjson he
  dsimp only at hjson he
  obtain ⟨v, hv, hjson⟩ := bind_eq_ok_iff.mp hjson
  have hworded : Worded (decode node) := h (Node.legible_of_value hv)
  cases hdecode : decode node with
  | error e' =>
    rw [hdecode] at he hworded
    cases he
    exact hworded
  | ok a =>
    cases clean with
    | true =>
      rw [hdecode] at he
      cases he
    | false => cases hjson

end ItemSql.Json
