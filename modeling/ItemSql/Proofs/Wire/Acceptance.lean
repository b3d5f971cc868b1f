import ItemSql.Proofs.NameMap.History

/-!
# Which documents are items

Of all JSON documents, these are the attribute values: the empty object, and an object of one member
that is named for a type. The strings of `S` and `N` are the content; the value of `NULL` may be
anything at all, as deep as it likes, and is passed over. An item is an object of attribute values,
and the items of an answer are an array of items.

The forms are stated on the tree of a document and mention no decoder of an attribute value. That a
document has a tree is a matter of its grammar alone, and the bytes are decoded as the tree is.
-/

namespace ItemSql

open Json (Decoder Document Node)
open Json.Decode (Fields)
open Json.Decode.Fields (named Slot Sole)

/-! ## Forms of values -/

/-- The attribute value that a document is. -/
inductive AttributeValue.Form : Node → AttributeValue → Prop
  | empty : Form (.object [] .closed) .null
  | string (content : String) :
      Form (.object [named ("S", .string (.ok content))] .closed) (.string content)
  | number (text : String) :
      Form (.object [named ("N", .string (.ok text))] .closed) (.number text)
  | null (content : Node) : Form (.object [named ("NULL", content)] .closed) .null

/-- An object of two members or more is no attribute value. -/
theorem AttributeValue.Form.length_le_one {members : List (Node × Node)} {a : AttributeValue}
    (h : AttributeValue.Form (.object members .closed) a) : members.length ≤ 1 := by
  cases h with
  | empty => exact Nat.zero_le 1
  | string | number | null => exact le_rfl

/-- The item that a document is: of attributes with one name, the last. -/
inductive Item.Form : Node → Item → Prop
  | object {members : List (String × Node)} {pairs : List (String × AttributeValue)}
      (h : Entries.Related AttributeValue.Form members pairs) :
      Form (.object (members.map named) .closed) (.ofList pairs)

/-- The item that a document is, if it is not null. -/
inductive Item.OptionForm : Node → Option Item → Prop
  | null : OptionForm .null none
  | item {node : Node} {item : Item} (h : Item.Form node item) : OptionForm node (some item)

/-- The items that a document is. -/
inductive Item.ListForm : Node → List Item → Prop
  | array {nodes : List Node} {items : List Item} (h : List.Forall₂ Item.Form nodes items) :
      ListForm (.array nodes .closed) items

/-- The answer of the values of its fields, any of which may be missing. -/
structure QueryOutput.MadeOf (capacity count scanned items last : Option Node)
    (o : QueryOutput) : Prop where
  consumedCapacity : Slot
    (fun v a ↦ Json.Decode.optional ConsumedCapacity.decode v = .ok a) none capacity
    o.consumedCapacity?
  count : Slot (fun v a ↦ Json.Decode.int64 v = .ok a) 0 count o.count
  scannedCount : Slot (fun v a ↦ Json.Decode.optional Json.Decode.int64 v = .ok a) none scanned
    o.scannedCount?
  items : Slot Item.ListForm [] items o.items
  lastEvaluatedKey : Slot Item.OptionForm none last o.lastEvaluatedKey?

/-- The answer that a document is. An object may have members of other names, and an array has no
names at all. -/
inductive QueryOutput.Form : Node → QueryOutput → Prop
  | object {members : List (String × Node)} {capacity count scanned items last : Option Node}
      {o : QueryOutput} (hcapacity : Sole members "ConsumedCapacity" capacity)
      (hcount : Sole members "Count" count) (hscanned : Sole members "ScannedCount" scanned)
      (hitems : Sole members "Items" items) (hlast : Sole members "LastEvaluatedKey" last)
      (h : MadeOf capacity count scanned items last o) :
      Form (.object (members.map named) .closed) o
  | array {values : List Node} {o : QueryOutput} (hlength : values.length ≤ 5)
      (h : MadeOf values[0]? values[1]? values[2]? values[3]? values[4]? o) :
      Form (.array values .closed) o

/-! ## Values -/

variable {node : Node}

theorem AttributeValue.content_eq_ok_iff {key : String} {a : AttributeValue}
    (h : node.fault? = none) :
    AttributeValue.content key node = .ok a ↔
      AttributeValue.Form (.object [named (key, node)] .closed) a := by
  constructor
  · intro hcontent
    unfold AttributeValue.content at hcontent
    split at hcontent
    · rename_i hkey
      obtain ⟨content, hstring, rfl⟩ := map_eq_ok_iff.mp hcontent
      rw [hkey, Json.Decode.string_eq_ok_iff.mp hstring]
      exact .string content
    · split at hcontent
      · rename_i hkey
        obtain ⟨text, hstring, rfl⟩ := map_eq_ok_iff.mp hcontent
        rw [hkey, Json.Decode.string_eq_ok_iff.mp hstring]
        exact .number text
      · split at hcontent
        · rename_i hkey
          rw [h] at hcontent
          obtain rfl := Except.ok.inj hcontent
          rw [hkey]
          exact .null node
        · cases hcontent
  · intro hform
    cases hform with
    | string content => rfl
    | number text => rfl
    | null =>
      rw [AttributeValue.content, if_neg (by decide), if_neg (by decide), if_pos rfl, h]

/-- A second member is refused, whatever the two are. -/
theorem AttributeValue.decode_eq_ok_iff {a : AttributeValue} (h : node.fault? = none) :
    AttributeValue.decode node = .ok a ↔ AttributeValue.Form node a := by
  constructor
  · intro hdecode
    unfold AttributeValue.decode at hdecode
    split at hdecode
    · rename_i ending
      obtain ⟨⟨⟩, hending, hvalue⟩ := bind_eq_ok_iff.mp hdecode
      obtain rfl := Json.Ending.check_eq_ok_iff.mp hending
      obtain rfl := Except.ok.inj hvalue
      exact .empty
    · rename_i name content more ending
      obtain ⟨key, hkey, hbehind⟩ := bind_eq_ok_iff.mp hdecode
      obtain ⟨value, hvalue, hmore⟩ := bind_eq_ok_iff.mp hbehind
      obtain rfl : name = .string (.ok key) := Node.eq_string_of_name hkey
      cases more with
      | nil =>
        obtain ⟨⟨⟩, hending, hresult⟩ := bind_eq_ok_iff.mp hmore
        obtain rfl := Json.Ending.check_eq_ok_iff.mp hending
        obtain rfl := Except.ok.inj hresult
        have hcontent := Node.fault?_object_iff.mp h _ List.mem_cons_self
        exact (content_eq_ok_iff hcontent).mp hvalue
      | cons second more =>
        obtain ⟨_, _, hresult⟩ := bind_eq_ok_iff.mp hmore
        cases hresult
    · exact absurd hdecode Json.Decode.mismatch_ne_ok
  · intro hform
    cases hform with
    | empty => rfl
    | string content => rfl
    | number text => rfl
    | null content =>
      have hcontent := Node.fault?_object_iff.mp h _ List.mem_cons_self
      have hvalue := (content_eq_ok_iff hcontent).mpr (.null content)
      exact bind_eq_ok_iff.mpr ⟨"NULL", rfl, bind_eq_ok_iff.mpr ⟨.null, hvalue, rfl⟩⟩

theorem Item.decode_eq_ok_iff {item : Item} (h : node.fault? = none) :
    Item.decode node = .ok item ↔ Item.Form node item := by
  have hpairs {members : List (String × Node)} {pairs : List (String × AttributeValue)}
      (hmembers : (Node.object (members.map named) .closed).fault? = none) :
      Entries.Related (fun v a ↦ AttributeValue.decode v = .ok a) members pairs ↔
        Entries.Related AttributeValue.Form members pairs :=
    forall₂_congr_of_mem fun m hm p ↦ and_congr_right fun _ ↦
      AttributeValue.decode_eq_ok_iff
        (List.forall_mem_map.mp (Node.fault?_object_iff.mp hmembers) m hm)
  refine NameMap.decode_eq_ok_iff_related.trans ?_
  constructor
  · rintro ⟨members, pairs, rfl, hdecoded, rfl⟩
    exact .object ((hpairs h).mp hdecoded)
  · rintro ⟨hmembers⟩
    exact ⟨_, _, rfl, (hpairs h).mpr hmembers, rfl⟩

theorem Item.optional_eq_ok_iff {item? : Option Item} (h : node.fault? = none) :
    Json.Decode.optional Item.decode node = .ok item? ↔ Item.OptionForm node item? := by
  rw [Json.Decode.optional_eq_ok_iff h]
  constructor
  · rintro (⟨rfl, rfl⟩ | ⟨-, item, hitem, rfl⟩)
    · exact .null
    · exact .item ((Item.decode_eq_ok_iff h).mp hitem)
  · rintro (_ | hitem)
    · exact .inl ⟨rfl, rfl⟩
    · exact .inr ⟨by cases hitem; nofun, _, (Item.decode_eq_ok_iff h).mpr hitem, rfl⟩

theorem Item.list_eq_ok_iff {items : List Item} (h : node.fault? = none) :
    Json.Decode.list Item.decode node = .ok items ↔ Item.ListForm node items := by
  have hitems {nodes : List Node} (hnodes : (Node.array nodes .closed).fault? = none) :
      List.Forall₂ (fun v item ↦ Item.decode v = .ok item) nodes items ↔
        List.Forall₂ Item.Form nodes items :=
    forall₂_congr_of_mem fun v hv _ ↦
      Item.decode_eq_ok_iff (Node.fault?_array_iff.mp hnodes v hv)
  rw [Json.Decode.list_eq_ok_iff]
  constructor
  · rintro ⟨nodes, rfl, hdecoded⟩
    exact .array ((hitems h).mp hdecoded)
  · rintro ⟨hnodes⟩
    exact ⟨_, rfl, (hitems h).mpr hnodes⟩

/-! ## Answers -/

namespace QueryOutput

variable {capacity? : Option ConsumedCapacity} {count : Int64} {scanned? : Option Int64}
  {items : List Item} {last? : Option Item} {c n s i l : Option Node}

/-- Items are decoded where the answer has them, by their form. -/
theorem madeOf_iff (hitems : ∀ v, i = some v → v.fault? = none)
    (hlast : ∀ v, l = some v → v.fault? = none) :
    MadeOf c n s i l ⟨capacity?, count, scanned?, items, last?⟩ ↔
      Slot (fun v a ↦ Json.Decode.optional ConsumedCapacity.decode v = .ok a) none c capacity? ∧
      Slot (fun v a ↦ Json.Decode.int64 v = .ok a) 0 n count ∧
      Slot (fun v a ↦ Json.Decode.optional Json.Decode.int64 v = .ok a) none s scanned? ∧
      Slot (fun v a ↦ Json.Decode.list Item.decode v = .ok a) [] i items ∧
      Slot (fun v a ↦ Json.Decode.optional Item.decode v = .ok a) none l last? := by
  rw [Slot.congr fun v hv a ↦ Item.list_eq_ok_iff (hitems v hv),
    Slot.congr fun v hv a ↦ Item.optional_eq_ok_iff (hlast v hv)]
  exact ⟨fun ⟨hc, hn, hs, hi, hl⟩ ↦ ⟨hc, hn, hs, hi, hl⟩,
    fun ⟨hc, hn, hs, hi, hl⟩ ↦ ⟨hc, hn, hs, hi, hl⟩⟩

variable {o : QueryOutput}

theorem form_of_decode_eq_ok (h : node.fault? = none) (hdecode : QueryOutput.decode node = .ok o) :
    QueryOutput.Form node o := by
  obtain ⟨⟨_, _, _, _, _, ⟨⟩⟩, hrecord, rfl⟩ := map_eq_ok_iff.mp hdecode
  rcases Fields.decode_eq_ok_iff.mp hrecord with ⟨members, rfl, hpicks⟩ | ⟨values, rfl, hlists⟩
  · have hclean : ∀ m ∈ members, m.2.fault? = none :=
      List.forall_mem_map.mp (Node.fault?_object_iff.mp h)
    obtain ⟨hc, hn, hs, hi, hl, -⟩ := (Fields.picks_iff_picksEach (by simp) hclean).mp hpicks
    obtain ⟨c, hcapacity, hc⟩ := Fields.found_defaulted_iff.mp hc
    obtain ⟨n, hcount, hn⟩ := Fields.found_defaulted_iff.mp hn
    obtain ⟨s, hscanned, hs⟩ := Fields.found_defaulted_iff.mp hs
    obtain ⟨i, hitems, hi⟩ := Fields.found_defaulted_iff.mp hi
    obtain ⟨l, hlast, hl⟩ := Fields.found_defaulted_iff.mp hl
    exact .object hcapacity hcount hscanned hitems hlast
      ((madeOf_iff (fun _ ↦ hitems.fault?_eq_none hclean)
        fun _ ↦ hlast.fault?_eq_none hclean).mpr ⟨hc, hn, hs, hi, hl⟩)
  · have hclean (k : Nat) (v : Node) (hv : values[k]? = some v) : v.fault? = none :=
      Node.fault?_array_iff.mp h v (List.mem_of_getElem? hv)
    obtain ⟨hc, hlists⟩ := Fields.lists_defaulted_iff.mp hlists
    obtain ⟨hn, hlists⟩ := Fields.lists_defaulted_iff.mp hlists
    obtain ⟨hs, hlists⟩ := Fields.lists_defaulted_iff.mp hlists
    obtain ⟨hi, hlists⟩ := Fields.lists_defaulted_iff.mp hlists
    obtain ⟨hl, hrest⟩ := Fields.lists_defaulted_iff.mp hlists
    simp only [List.head?_eq_getElem?, List.getElem?_tail] at hc hn hs hi hl
    have hlength := congrArg List.length hrest
    simp only [List.length_tail, List.length_nil] at hlength
    exact .array (by omega) ((madeOf_iff (hclean 3) (hclean 4)).mpr ⟨hc, hn, hs, hi, hl⟩)

theorem decode_eq_ok_of_form (h : node.fault? = none) (hform : QueryOutput.Form node o) :
    QueryOutput.decode node = .ok o := by
  refine map_eq_ok_iff.mpr
    ⟨(o.consumedCapacity?, o.count, o.scannedCount?, o.items, o.lastEvaluatedKey?, ()), ?_, rfl⟩
  cases hform with
  | @object members _ _ _ _ _ _ hcapacity hcount hscanned hitems hlast hmade =>
    have hclean : ∀ m ∈ members, m.2.fault? = none :=
      List.forall_mem_map.mp (Node.fault?_object_iff.mp h)
    obtain ⟨hc, hn, hs, hi, hl⟩ := (madeOf_iff (fun _ ↦ hitems.fault?_eq_none hclean)
      fun _ ↦ hlast.fault?_eq_none hclean).mp hmade
    refine Fields.decode_object_eq_ok_iff.mpr
      ((Fields.picks_iff_picksEach (by simp) hclean).mpr ?_)
    exact ⟨Fields.found_defaulted_iff.mpr ⟨_, hcapacity, hc⟩,
      Fields.found_defaulted_iff.mpr ⟨_, hcount, hn⟩,
      Fields.found_defaulted_iff.mpr ⟨_, hscanned, hs⟩,
      Fields.found_defaulted_iff.mpr ⟨_, hitems, hi⟩,
      Fields.found_defaulted_iff.mpr ⟨_, hlast, hl⟩, trivial⟩
  | @array values _ hlength hmade =>
    have hclean (k : Nat) (v : Node) (hv : values[k]? = some v) : v.fault? = none :=
      Node.fault?_array_iff.mp h v (List.mem_of_getElem? hv)
    obtain ⟨hc, hn, hs, hi, hl⟩ := (madeOf_iff (hclean 3) (hclean 4)).mp hmade
    refine Fields.decode_array_eq_ok_iff.mpr ?_
    simp only [Fields.lists_defaulted_iff, List.head?_eq_getElem?, List.getElem?_tail]
    exact ⟨hc, hn, hs, hi, hl,
      List.length_eq_zero_iff.mp (by simp only [List.length_tail]; omega)⟩

end QueryOutput

/-! ## Documents -/

/-- A document is decoded as an attribute value, an item, a list of items or an answer just when it
has the form of one, and then as the one it is. -/
theorem Json.Document.bytes_eq_ok_iff_form {text : String} (h : Document text node) :
    (∀ a, Json.Decode.bytes AttributeValue.decode (Text.utf8 text) = .ok a ↔
      AttributeValue.Form node a) ∧
    (∀ item, Json.Decode.bytes Item.decode (Text.utf8 text) = .ok item ↔ Item.Form node item) ∧
    (∀ items, Json.Decode.bytes (Json.Decode.list Item.decode) (Text.utf8 text) = .ok items ↔
      Item.ListForm node items) ∧
    ∀ o, Json.Decode.bytes QueryOutput.decode (Text.utf8 text) = .ok o ↔
      QueryOutput.Form node o := by
  have hclean : node.fault? = none := Json.Spells.fault?_eq_none h
  refine ⟨fun a ↦ ?_, fun item ↦ ?_, fun items ↦ ?_, fun o ↦ ?_⟩
  · rw [h.bytes_eq, AttributeValue.decode_eq_ok_iff hclean]
  · rw [h.bytes_eq, Item.decode_eq_ok_iff hclean]
  · rw [h.bytes_eq, Item.list_eq_ok_iff hclean]
  · rw [h.bytes_eq]
    exact ⟨QueryOutput.form_of_decode_eq_ok hclean, QueryOutput.decode_eq_ok_of_form hclean⟩

/-- No value, with a number beyond all doubles and a pair of surrogates for its content. -/
def strangeNull : String :=
  "\x7b \"NULL\" : [1e999, \x7b\"S\":\"\\ud83d\\ude00\"\x7d] \x7d"

theorem document_strangeNull :
    ∃ content, Document strangeNull (.object [named ("NULL", content)] .closed) := by
  have hspace : Json.Blank [' '] := List.forall_mem_singleton.mpr List.mem_cons_self
  have hnine : Decimal.IsDigits ['9', '9', '9'] := ⟨by decide, List.all_eq_true.mp rfl⟩
  have hone : Decimal.IsDigits ['1'] := ⟨by decide, List.all_eq_true.mp rfl⟩
  have hnumber := Json.Spells.number <| .plain <| .mk (.digits (by decide) hone) .none <|
    @Json.ExponentText.some 'e' [] _ (.inl rfl) List.mem_cons_self hnine
  have hemoji := Json.Spells.string <| @Json.StringText.pair
    'd' '8' '3' 'd' 'd' 'e' '0' '0' 0xD83D 0xDE00 [] [] (by decide) (by decide) (by decide)
    (by decide) .nil
  have hobject := @Json.Spells.object [⟨Json.quoted "S", "S", _, _⟩] (List.cons_ne_nil _ _)
    (List.forall_mem_singleton.mpr (Json.spells_quoted "S"))
    (List.forall_mem_singleton.mpr hemoji)
  have harray := @Json.Spells.array [(_, _), (_, _)] (List.cons_ne_nil _ _)
    (List.forall_mem_cons.mpr ⟨hnumber, List.forall_mem_singleton.mpr
      (.blank hspace (List.forall_mem_nil _) hobject)⟩)
  have htext := @Json.Spells.object [⟨_, "NULL", _, _⟩] (List.cons_ne_nil _ _)
    (List.forall_mem_singleton.mpr (.blank hspace hspace (Json.spells_quoted "NULL")))
    (List.forall_mem_singleton.mpr (.blank hspace hspace harray))
  exact ⟨_, htext⟩

theorem Json.Document.bytes_eq_ok_iff_form_strangeNull :
    (∃ node, Document strangeNull node) ∧
      Json.Decode.bytes AttributeValue.decode (Text.utf8 strangeNull) = .ok .null ∧
      (∀ items, Json.Decode.bytes (Json.Decode.list Item.decode) (Text.utf8 strangeNull) ≠
        .ok items) ∧
      Json.Decode.bytes QueryOutput.decode (Text.utf8 strangeNull) =
        .ok ⟨none, 0, none, [], none⟩ := by
  obtain ⟨content, hdocument⟩ := document_strangeNull
  obtain ⟨hvalue, -, hitems, hanswer⟩ := Json.Document.bytes_eq_ok_iff_form hdocument
  have habsent {name : String} (hname : "NULL" ≠ name) : Sole [("NULL", content)] name none :=
    .absent (List.forall_mem_singleton.mpr hname)
  refine ⟨⟨_, hdocument⟩, (hvalue _).mpr (.null content), fun items h ↦ ?_, (hanswer _).mpr ?_⟩
  · cases (hitems items).mp h
  · exact .object (habsent (by decide)) (habsent (by decide)) (habsent (by decide))
      (habsent (by decide)) (habsent (by decide)) ⟨.absent, .absent, .absent, .absent, .absent⟩

end ItemSql
