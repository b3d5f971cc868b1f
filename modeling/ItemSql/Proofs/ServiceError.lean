import ItemSql.Proofs.Json.Exact
import ItemSql.Proofs.Json.Record
import ItemSql.Proofs.Json.Tree
import ItemSql.ServiceError

/-!
# Errors read from their envelopes

Whatever the body of an answer is, it is an error with a code and a type, and the code is that of
the type. A body that is an envelope is read as it stands. Any other body is the message of an
unknown error, with a replacement character for what is not UTF-8 in it (`reported_ofBody`).

What an envelope is can be said without a decoder (`Envelope`). It is an object, with a type under
one name and a message under either of two, or an array of the two. Both are strings and may be left
out. Other members may hold what they like, as long as the body has an outline: nobody looks at
their strings.
-/

namespace ItemSql

open Json (Node Outlines)
open Json.Decode (Field Fields)
open Json.Decode.Fields (named OneOf Slot)
open Text (Glyph)

/-! ## Types of errors -/

namespace ErrorCode

theorem behindLast?_append {mark : Char} {cs name : List Char} (h : mark ∉ name) :
    behindLast? mark (cs ++ mark :: name) = some name := by
  have hname : ∀ c ∈ name.reverse, decide (c ≠ mark) = true := by
    intro c hc
    rw [decide_eq_true_eq]
    rintro rfl
    exact h (List.mem_reverse.mp hc)
  rw [behindLast?, if_pos (List.mem_append_right _ List.mem_cons_self), List.reverse_append,
    List.reverse_cons, List.append_assoc, List.singleton_append,
    List.takeWhile_append_of_pos hname, List.takeWhile_cons_of_neg (by simp), List.append_nil,
    List.reverse_reverse]

/-- A type that a code is reported as: its name, with or without a namespace. The namespace may
have the mark in it that separates it from the name. -/
inductive Spelled (code : ErrorCode) : String → Prop
  | bare : Spelled code code.wireName
  | namespaced (space : String) : Spelled code (space ++ "#" ++ code.wireName)

theorem mark_notMem_wireName (code : ErrorCode) : '#' ∉ code.wireName.toList := by
  cases code <;> decide

theorem Spelled.shortName {code : ErrorCode} {errorType : String} (h : code.Spelled errorType) :
    shortName errorType = code.wireName := by
  cases h with
  | bare => rw [ErrorCode.shortName, behindLast?, if_neg code.mark_notMem_wireName]
  | namespaced space =>
    have hchars : (space ++ "#" ++ code.wireName).toList =
        space.toList ++ '#' :: code.wireName.toList := by
      rw [String.toList_append, String.toList_append, List.append_assoc]
      rfl
    rw [ErrorCode.shortName, hchars, behindLast?_append code.mark_notMem_wireName]
    exact String.ofList_toList

/-- A code is told by its name. -/
theorem Spelled.ofErrorType {code : ErrorCode} {errorType : String} (h : code.Spelled errorType) :
    ofErrorType errorType = code := by
  rw [ErrorCode.ofErrorType, h.shortName]
  cases code <;> decide

end ErrorCode

/-! ## Envelopes -/

namespace ServiceError

/-- The names that the message may have. -/
def messageNames : List String :=
  ["message", "Message"]

/-- The text of a field that may be left out. -/
def TextOf : Option Node → String → Prop :=
  Slot (fun v text ↦ v = .string (.ok text)) ""

/-- The body is an envelope with this type and this message, which are empty if they are left out.
Unknown members hold anything, and an array has no names at all. -/
inductive Envelope (body : Text.Bytes) (errorType message : String) : Prop
  | object {members : List (String × Node)} {type? message? : Option Node}
      (hbody : Outlines (Glyph.ofBytes body) (.object (members.map named) .closed))
      (htype : OneOf ["__type"] members type?) (hmessage : OneOf messageNames members message?)
      (htypeText : TextOf type? errorType) (hmessageText : TextOf message? message)
  | array {values : List Node} (hbody : Outlines (Glyph.ofBytes body) (.array values .closed))
      (hlength : values.length ≤ 2) (htypeText : TextOf values[0]? errorType)
      (hmessageText : TextOf values[1]? message)

/-- The fields of an envelope. -/
def fields : Fields (Option String × Option String × Unit) (String × String × Unit) :=
  .field (.defaulted "__type" "" Json.Decode.string) <|
  .field { Field.defaulted "message" "" Json.Decode.string with aliases := ["Message"] } <|
  .none

theorem envelope_eq_ok_iff {node : Node} {errorType message : String} :
    envelope node = .ok (errorType, message) ↔
      fields.decode "ErrorEnvelope" node = .ok (errorType, message, ()) := by
  rw [envelope, map_eq_ok_iff]
  constructor
  · rintro ⟨⟨errorType, message, ⟨⟩⟩, h, ⟨⟩⟩
    exact h
  · exact fun h ↦ ⟨_, h, rfl⟩

theorem clean_fields : fields.Clean := by
  have hstring (v : Node) (text : String) (h : Json.Decode.string v = .ok text) :
      v.fault? = none := by
    rw [Json.Decode.string_eq_ok_iff.mp h]
    rfl
  exact ⟨hstring, hstring, trivial⟩

theorem apart_fields : fields.Apart := by
  refine ⟨⟨fun name hname ↦ ?_, trivial⟩, trivial, trivial⟩
  have hnames : (decide (name = "message") || ["Message"].contains name) = true := hname
  have hcases : name = "message" ∨ name = "Message" := by
    simpa using hnames
  rcases hcases with rfl | rfl <;> decide

theorem fault?_of_envelope {node : Node} {found : String × String}
    (h : envelope node = .ok found) : node.fault? = none := by
  obtain ⟨members, rfl, hpicks⟩ | ⟨values, rfl, hlists⟩ :=
    Fields.decode_eq_ok_iff.mp (envelope_eq_ok_iff.mp h)
  · exact Json.Node.fault?_object_iff.mpr
      (List.forall_mem_map.mpr (hpicks.fault?_eq_none clean_fields))
  · exact Json.Node.fault?_array_iff.mpr (hlists.fault?_eq_none clean_fields)

variable {body : Text.Bytes} {errorType message : String}

theorem textOf_iff {v? : Option Node} {text : String} :
    Slot (fun v text ↦ Json.Decode.string v = .ok text) "" v? text ↔ TextOf v? text :=
  Slot.congr fun _ _ _ ↦ Json.Decode.string_eq_ok_iff

/-- An object is an envelope if there is at most one value for each field, and it is a string. -/
theorem envelope_object_iff {members : List (String × Node)}
    (hclean : ∀ m ∈ members, m.2.fault? = none) :
    envelope (.object (members.map named) .closed) = .ok (errorType, message) ↔
      (∃ type?, OneOf ["__type"] members type? ∧ TextOf type? errorType) ∧
        ∃ message?, OneOf messageNames members message? ∧ TextOf message? message := by
  rw [envelope_eq_ok_iff, Fields.decode_object_eq_ok_iff,
    Fields.picks_iff_picksEach apart_fields hclean]
  refine (and_congr (Fields.found_oneOf_iff rfl)
    ((and_iff_left trivial).trans (Fields.found_oneOf_iff rfl))).trans ?_
  exact and_congr (exists_congr fun _ ↦ and_congr_right fun _ ↦ textOf_iff)
    (exists_congr fun _ ↦ and_congr_right fun _ ↦ textOf_iff)

theorem envelope_array_iff {values : List Node} :
    envelope (.array values .closed) = .ok (errorType, message) ↔
      values.length ≤ 2 ∧ TextOf values[0]? errorType ∧ TextOf values[1]? message := by
  have hend : Fields.none.Lists values.tail.tail () ↔ values.length ≤ 2 := by
    rw [Fields.Lists, ← List.length_eq_zero_iff, List.length_tail, List.length_tail]
    omega
  rw [envelope_eq_ok_iff, Fields.decode_array_eq_ok_iff, fields, Fields.lists_field_iff rfl,
    Fields.lists_field_iff rfl, hend, List.head?_eq_getElem?, List.head?_eq_getElem?,
    List.getElem?_tail]
  constructor
  · rintro ⟨htype, hmessage, hlength⟩
    exact ⟨hlength, textOf_iff.mp htype, textOf_iff.mp hmessage⟩
  · rintro ⟨hlength, htype, hmessage⟩
    exact ⟨textOf_iff.mpr htype, textOf_iff.mpr hmessage, hlength⟩

/-- What is read as an envelope is one. -/
theorem bytes_envelope_iff :
    Json.Decode.bytes envelope body = .ok (errorType, message) ↔
      Envelope body errorType message := by
  rw [Json.bytes_eq_ok_iff fun _ _ ↦ fault?_of_envelope]
  constructor
  · rintro ⟨node, hbody, h⟩
    have hclean := hbody.whole.fault?_eq_none
    obtain ⟨members, rfl, -⟩ | ⟨values, rfl, -⟩ :=
      Fields.decode_eq_ok_iff.mp (envelope_eq_ok_iff.mp h)
    · obtain ⟨⟨type?, htype, htypeText⟩, message?, hmessage, hmessageText⟩ :=
        (envelope_object_iff (List.forall_mem_map.mp (Json.Node.fault?_object_iff.mp hclean))).mp h
      exact .object hbody htype hmessage htypeText hmessageText
    · obtain ⟨hlength, htypeText, hmessageText⟩ := envelope_array_iff.mp h
      exact .array hbody hlength htypeText hmessageText
  · rintro (⟨hbody, htype, hmessage, htypeText, hmessageText⟩ |
      ⟨hbody, hlength, htypeText, hmessageText⟩)
    · have hclean := List.forall_mem_map.mp (Json.Node.fault?_object_iff.mp
        hbody.whole.fault?_eq_none)
      exact ⟨_, hbody, (envelope_object_iff hclean).mpr
        ⟨⟨_, htype, htypeText⟩, _, hmessage, hmessageText⟩⟩
    · exact ⟨_, hbody, envelope_array_iff.mpr ⟨hlength, htypeText, hmessageText⟩⟩

/-! ## What a body is read as -/

theorem ofBody_of_envelope (h : Envelope body errorType message) :
    ofBody body = ⟨.ofErrorType errorType, errorType, message⟩ := by
  rw [ofBody, bytes_envelope_iff.mpr h]

theorem ofBody_of_not_envelope (h : ∀ errorType message, ¬ Envelope body errorType message) :
    ofBody body = .ofCode .unknown (Text.lossy body) := by
  rw [ofBody]
  cases hread : Json.Decode.bytes envelope body with
  | error e => rfl
  | ok found => exact absurd (bytes_envelope_iff.mp hread) (h found.1 found.2)

/-- The names of the two fields. Those of the message mean the same. -/
def fieldNames : List (List String) :=
  [["__type"], messageNames]

/-- A type and a message are an envelope among unknown members, in any order. -/
theorem Envelope.of_perm {spelling : String} {members unknown : List (String × Node)}
    (hbody : Outlines (Glyph.ofBytes body) (.object (members.map named) .closed))
    (hspelling : spelling ∈ messageNames)
    (hperm : members.Perm (("__type", .string (.ok errorType)) ::
      (spelling, .string (.ok message)) :: unknown))
    (hunknown : ∀ m ∈ unknown, ∀ names ∈ fieldNames, m.1 ∉ names) :
    Envelope body errorType message := by
  have htype : "__type" ∉ messageNames := by decide
  have hmessage : ∀ name ∈ messageNames, name ∉ ["__type"] := by decide
  refine .object hbody (.of_perm hperm List.mem_cons_self ?_)
    (.of_perm (hperm.trans (.swap _ _ _)) hspelling ?_) (.present rfl) (.present rfl)
  · exact List.forall_mem_cons.mpr
      ⟨hmessage spelling hspelling, fun m hm ↦ hunknown m hm _ List.mem_cons_self⟩
  · exact List.forall_mem_cons.mpr
      ⟨htype, fun m hm ↦ hunknown m hm _ (List.mem_cons_of_mem _ List.mem_cons_self)⟩

theorem Envelope.exists_outlines (h : Envelope body errorType message) :
    ∃ node, Outlines (Glyph.ofBytes body) node := by
  cases h with
  | object hbody => exact ⟨_, hbody⟩
  | array hbody => exact ⟨_, hbody⟩

section

variable {members : List (Except Json.Fault String × Node)} {names : List String}
  {name name' : String} {v v' : Node}

/-- An envelope that is an object has one member at most for each field, and it is a string. -/
theorem Envelope.exists_oneOf (h : Envelope body errorType message)
    (hbody : Outlines (Glyph.ofBytes body) (.object (members.map Json.called) .closed)) :
    ∃ members' : List (String × Node), members = members'.map (fun m ↦ (.ok m.1, m.2)) ∧
      ∀ names ∈ fieldNames, ∃ v? text, OneOf names members' v? ∧ TextOf v? text := by
  cases h with
  | array hbody' => cases hbody.unique hbody'
  | @object members' type? message? hbody' htype hmessage htypeText hmessageText =>
    obtain ⟨hmembers, -⟩ := Node.object.inj (hbody.unique hbody')
    refine ⟨members', ?_, ?_⟩
    · have hinjective : Function.Injective Json.called := by
        rintro ⟨name, v⟩ ⟨name', v'⟩ ⟨⟩
        rfl
      refine List.map_injective_iff.mpr hinjective ?_
      rw [hmembers, List.map_map]
      rfl
    · intro names hnames
      simp only [fieldNames, List.mem_cons, List.not_mem_nil, or_false] at hnames
      rcases hnames with rfl | rfl
      · exact ⟨_, _, htype, htypeText⟩
      · exact ⟨_, _, hmessage, hmessageText⟩

theorem Envelope.exists_eq_string (h : Envelope body errorType message)
    (hbody : Outlines (Glyph.ofBytes body) (.object (members.map Json.called) .closed))
    (hnames : names ∈ fieldNames) (hname : name ∈ names) (hmem : (.ok name, v) ∈ members) :
    ∃ text, v = .string (.ok text) := by
  obtain ⟨members', rfl, hfields⟩ := h.exists_oneOf hbody
  obtain ⟨v?, text, hone, htext⟩ := hfields names hnames
  obtain ⟨⟨name', v'⟩, hmem', heq⟩ := List.mem_map.mp hmem
  obtain ⟨hname', rfl⟩ := Prod.mk.inj heq
  obtain rfl := Except.ok.inj hname'
  rw [hone.eq_some_of_mem hmem' hname] at htext
  cases htext with
  | present htext => exact ⟨text, htext⟩

/-- The second value of a field stands under any of its names. -/
theorem Envelope.not_twice {before between after : List (Except Json.Fault String × Node)}
    (hbody : Outlines (Glyph.ofBytes body)
      (.object ((before ++ (.ok name, v) :: (between ++ (.ok name', v') :: after)).map Json.called)
        .closed))
    (hnames : names ∈ fieldNames) (hname : name ∈ names) (hname' : name' ∈ names) :
    ¬ Envelope body errorType message := by
  intro h
  obtain ⟨members', hmembers, hfields⟩ := h.exists_oneOf hbody
  obtain ⟨v?, text, hone, htext⟩ := hfields names hnames
  obtain ⟨before', rest, rfl, rfl, hrest⟩ := List.map_eq_append_iff.mp hmembers.symm
  obtain ⟨m, rest', rfl, hm, hrest'⟩ := List.map_eq_cons_iff.mp hrest
  obtain ⟨between', rest'', rfl, rfl, hrest''⟩ := List.map_eq_append_iff.mp hrest'
  obtain ⟨m', after', rfl, hm', rfl⟩ := List.map_eq_cons_iff.mp hrest''
  obtain rfl := Except.ok.inj (Prod.mk.inj hm).1
  obtain rfl := Except.ok.inj (Prod.mk.inj hm').1
  exact hone.not_twice hname hname'

end

/-- An error that is written as an envelope is read back. -/
theorem ofBody_compact {code : ErrorCode} {spelling : String} {depth : Nat}
    {members unknown : List (String × Json)} (hcode : code.Spelled errorType)
    (hspelling : spelling ∈ messageNames)
    (hperm : members.Perm (("__type", .string errorType) :: (spelling, .string message) :: unknown))
    (hunknown : ∀ m ∈ unknown, ∀ names ∈ fieldNames, m.1 ∉ names)
    (hreadable : ∀ m ∈ unknown, Json.Readable depth m.2) :
    ofBody (Text.utf8 (Json.object members).compact) = ⟨code, errorType, message⟩ := by
  have hmembers : ∀ m ∈ members, Json.Readable depth m.2 := by
    intro m hm
    obtain rfl | hm := List.mem_cons.mp (hperm.mem_iff.mp hm)
    · exact .string depth errorType
    obtain rfl | hm := List.mem_cons.mp hm
    · exact .string depth message
    · exact hreadable m hm
  have hbody := (Json.Readable.object hmembers).document_compact.outlines
  rw [← Glyph.ofString, ← Glyph.ofBytes_utf8, Json.tree, Json.memberTrees_eq_map] at hbody
  have htrees := hperm.map fun m ↦ (m.1, m.2.tree)
  rw [List.map_cons, List.map_cons, Json.tree, Json.tree] at htrees
  have henvelope : Envelope (Text.utf8 (Json.object members).compact) errorType message :=
    .of_perm (by rwa [List.map_map]) hspelling htrees
      (List.forall_mem_map.mpr hunknown)
  rw [ofBody_of_envelope henvelope, hcode.ofErrorType]

/-- The error of a body as it should be. -/
structure Reported (body : Text.Bytes) (e : ServiceError) : Prop where
  /-- The code is that of the type, whatever the body is. -/
  code : e.code = .ofErrorType e.errorType
  /-- An envelope is read as it stands. -/
  envelope : ∀ ⦃errorType message⦄, Envelope body errorType message →
    e = ⟨.ofErrorType errorType, errorType, message⟩
  /-- What is no envelope is the message of an unknown error. -/
  verbatim : (∀ errorType message, ¬ Envelope body errorType message) →
    e = .ofCode .unknown (Text.lossy body)
  /-- A type and a message among unknown members, in any order. -/
  wellKnown : ∀ ⦃code : ErrorCode⦄ ⦃errorType spelling message : String⦄
    ⦃members unknown : List (String × Node)⦄, code.Spelled errorType → spelling ∈ messageNames →
    Outlines (Glyph.ofBytes body) (.object (members.map named) .closed) →
    members.Perm (("__type", .string (.ok errorType)) :: (spelling, .string (.ok message)) ::
      unknown) →
    (∀ m ∈ unknown, ∀ names ∈ fieldNames, m.1 ∉ names) → e = ⟨code, errorType, message⟩
  /-- No JSON is no envelope. -/
  malformed : (∀ node, ¬ Outlines (Glyph.ofBytes body) node) →
    e = .ofCode .unknown (Text.lossy body)
  /-- A type or a message that is no string. -/
  mistyped : ∀ ⦃members : List (Except Json.Fault String × Node)⦄ ⦃names : List String⦄
    ⦃name : String⦄ ⦃v : Node⦄,
    Outlines (Glyph.ofBytes body) (.object (members.map Json.called) .closed) →
    names ∈ fieldNames → name ∈ names → (.ok name, v) ∈ members →
    (∀ text, v ≠ .string (.ok text)) → e = .ofCode .unknown (Text.lossy body)
  /-- Two types or two messages, the names of which need not be the same. -/
  repeated : ∀ ⦃before between after : List (Except Json.Fault String × Node)⦄
    ⦃names : List String⦄ ⦃name name' : String⦄ ⦃v v' : Node⦄,
    Outlines (Glyph.ofBytes body)
      (.object ((before ++ (.ok name, v) :: (between ++ (.ok name', v') :: after)).map Json.called)
        .closed) →
    names ∈ fieldNames → name ∈ names → name' ∈ names → e = .ofCode .unknown (Text.lossy body)

theorem reported_ofBody (body : Text.Bytes) : Reported body (ofBody body) where
  code := by
    by_cases h : ∃ errorType message, Envelope body errorType message
    · obtain ⟨errorType, message, h⟩ := h
      rw [ofBody_of_envelope h]
    · rw [ofBody_of_not_envelope fun errorType message hno ↦ h ⟨errorType, message, hno⟩]
      exact ErrorCode.Spelled.bare.ofErrorType.symm
  envelope _ _ h := ofBody_of_envelope h
  verbatim h := ofBody_of_not_envelope h
  wellKnown code errorType spelling message members unknown hcode hspelling hbody hperm
      hunknown := by
    rw [ofBody_of_envelope (.of_perm hbody hspelling hperm hunknown), hcode.ofErrorType]
  malformed h := by
    refine ofBody_of_not_envelope fun errorType message henvelope ↦ ?_
    obtain ⟨node, hbody⟩ := henvelope.exists_outlines
    exact h node hbody
  mistyped members names name v hbody hnames hname hmem hv := by
    refine ofBody_of_not_envelope fun errorType message henvelope ↦ ?_
    obtain ⟨text, htext⟩ := henvelope.exists_eq_string hbody hnames hname hmem
    exact hv text htext
  repeated before between after names name name' v v' hbody hnames hname hname' :=
    ofBody_of_not_envelope fun _ _ ↦ Envelope.not_twice hbody hnames hname hname'

end ServiceError

end ItemSql
