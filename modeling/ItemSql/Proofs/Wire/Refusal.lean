import ItemSql.Proofs.Json.Refusal
import ItemSql.Wire.Request

/-!
# Why requests and answers are refused

A store takes a request only if its body is JSON, and an answer is printed only if it is JSON. What
is then refused is refused in words (`Request.hasWords`, `QueryOutput.hasWords`).
-/

namespace ItemSql

open Json (Decoder Legible WordsAll Worded)
open Json.Decode.Fields (named Words)

variable {α : Type}

/-! ## Items -/

theorem AttributeValue.worded_content (key : String) {node : Json.Node} (h : Legible node) :
    Worded (content key node) := by
  unfold content
  split_ifs
  · exact (WordsAll.string h).map _
  · exact (WordsAll.string h).map _
  · rw [h.fault?_eq_none]
    trivial
  · trivial

theorem AttributeValue.wordsAll : WordsAll decode := by
  refine .of_form "an attribute value object with at most one type key" fun node hnode ↦ ?_
  cases hnode with
  | @object members hmembers =>
    refine .inl ?_
    cases members with
    | nil => trivial
    | cons m more =>
      refine (worded_content m.1 (hmembers m List.mem_cons_self)).bind fun value _ ↦ ?_
      cases more with
      | nil => trivial
      | cons _ _ => trivial
  | null | bool | number | string | array => exact .inr rfl

theorem NameMap.worded_insertMembers {decode : Decoder α} (h : WordsAll decode)
    {members : List (String × Json.Node)} (hmembers : ∀ m ∈ members, Legible m.2)
    (m : NameMap α) : Worded (insertMembers decode (members.map named) m) := by
  induction members generalizing m with
  | nil => trivial
  | cons entry members ih =>
    obtain ⟨hentry, hrest⟩ := List.forall_mem_cons.mp hmembers
    exact (h hentry).bind fun value _ ↦ ih hrest _

theorem NameMap.wordsAll {decodeValue : Decoder α} (h : WordsAll decodeValue) :
    WordsAll (decode decodeValue) := by
  refine .of_form "a map keyed by attribute name" fun node hnode ↦ ?_
  cases hnode with
  | object hmembers =>
    exact .inl ((worded_insertMembers h hmembers ∅).bind fun _ _ ↦ trivial)
  | null | bool | number | string | array => exact .inr rfl

theorem Item.wordsAll : WordsAll decode :=
  NameMap.wordsAll AttributeValue.wordsAll

/-! ## Records -/

theorem Condition.wordsAll : WordsAll decode :=
  Words.record (.field (.variant _ _) (.field AttributeValue.wordsAll.list .none))

theorem AttributeUpdate.wordsAll : WordsAll decode :=
  Words.record (.field AttributeValue.wordsAll.optional
    (.field (WordsAll.variant _ _).optional .none))

theorem KeySchemaElement.wordsAll : WordsAll decode :=
  Words.record (.field .string (.field (.variant _ _) .none))

theorem AttributeDefinition.wordsAll : WordsAll decode :=
  Words.record (.field .string (.field (.variant _ _) .none))

theorem ProvisionedThroughput.wordsAll : WordsAll decode :=
  Words.record (.field (.fixedWidth _ _) (.field (.fixedWidth _ _) .none))

theorem ConsumedCapacity.wordsAll : WordsAll decode :=
  Words.record (.field WordsAll.string.optional (.field WordsAll.double.optional .none))

/-! ## Payloads and answers -/

theorem CreateTable.wordsAll : WordsAll decode :=
  Words.record (.field .string <| .field AttributeDefinition.wordsAll.list <|
    .field KeySchemaElement.wordsAll.list <| .field ProvisionedThroughput.wordsAll .none)

theorem DeleteTable.wordsAll : WordsAll decode :=
  Words.record (.field .string .none)

theorem PutItem.wordsAll : WordsAll decode :=
  Words.record (.field .string (.field Item.wordsAll .none))

theorem UpdateItem.wordsAll : WordsAll decode :=
  Words.record (.field .string <| .field Item.wordsAll <|
    .field (NameMap.wordsAll AttributeUpdate.wordsAll) .none)

theorem DeleteItem.wordsAll : WordsAll decode :=
  Words.record (.field .string (.field Item.wordsAll .none))

theorem Query.wordsAll : WordsAll decode :=
  Words.record (.field .string <| .field WordsAll.string.list <|
    .field (NameMap.wordsAll Condition.wordsAll) <| .field (WordsAll.fixedWidth _ _).optional <|
    .field WordsAll.boolean.optional .none)

theorem QueryOutput.wordsAll : WordsAll decode :=
  Words.record (.field ConsumedCapacity.wordsAll.optional <| .field (.fixedWidth _ _) <|
    .field (WordsAll.fixedWidth _ _).optional <| .field Item.wordsAll.list <|
    .field Item.wordsAll.optional .none)

theorem Request.wordsAll (op : Operation) : WordsAll (decode op) := by
  intro node h
  cases op with
  | query => exact (Query.wordsAll h).map _
  | putItem => exact (PutItem.wordsAll h).map _
  | updateItem => exact (UpdateItem.wordsAll h).map _
  | deleteItem => exact (DeleteItem.wordsAll h).map _
  | createTable => exact (CreateTable.wordsAll h).map _
  | deleteTable => exact (DeleteTable.wordsAll h).map _

variable {body : Text.Bytes} {json : Json} {e : Json.DecodeError}

/-- A body that is JSON and not a request of the operation is refused in words. -/
theorem Request.hasWords {op : Operation} (hjson : Json.ofBytes body = .ok json)
    (he : Json.Decode.bytes (decode op) body = .error e) : e.HasWords :=
  (wordsAll op).hasWords hjson he

/-- A text that is JSON and not the answer to a query is refused in words. -/
theorem QueryOutput.hasWords (hjson : Json.ofBytes body = .ok json)
    (he : Json.Decode.bytes decode body = .error e) : e.HasWords :=
  wordsAll.hasWords hjson he

end ItemSql
