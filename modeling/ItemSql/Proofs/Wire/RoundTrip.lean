import ItemSql.Proofs.Json.Codec
import ItemSql.Proofs.NameMap
import ItemSql.Wire.Request

/-!
# What is sent is what is received

Everything that goes over the wire is decoded as what it was written for: scalars, maps with the
order of their names, and records whose fields were left out because they say nothing. The depths
are those of the brackets, and no type of the wire has more than five inside each other.

The one thing that is not covered is the cost of a query in capacity units, which is a double.
-/

namespace ItemSql

open Json (Decoder Denotes)
open Json.Decode (Field Fields)
open Json.Decode.Fields (Holds)

/-! ## Maps -/

namespace NameMap

variable {α : Type} {ofValue : α → Json} {decodeValue : Decoder α} {depth : Nat}

theorem exists_insertMembers {entries : List (String × α)} {m : NameMap α}
    (h : ∀ e ∈ entries, Denotes decodeValue depth (ofValue e.2) e.2)
    (hnames : (Entries.names (m.entries ++ entries)).Nodup) :
    ∃ m' : NameMap α, m'.entries = m.entries ++ entries ∧
      insertMembers decodeValue
        (Json.memberTrees (entries.map fun (name, value) ↦ (name, ofValue value))) m = .ok m' := by
  induction entries generalizing m with
  | nil => exact ⟨m, (List.append_nil _).symm, rfl⟩
  | cons e entries ih =>
    obtain ⟨name, value⟩ := e
    obtain ⟨hvalue, hentries⟩ := List.forall_mem_cons.mp h
    have hinsert := entries_insert_of_nodup hnames
    obtain ⟨m', hm', hmembers⟩ := ih hentries (m := m.insert name value) (by
      rwa [hinsert, ← List.append_cons])
    refine ⟨m', by rw [hm', hinsert, ← List.append_cons], ?_⟩
    change (decodeValue (ofValue value).tree >>= fun value ↦
      insertMembers decodeValue _ (m.insert name value)) = _
    rw [hvalue.decode_tree]
    exact hmembers

/-- A map is decoded with its names in their order. -/
theorem denotes {m : NameMap α} (h : ∀ e ∈ m.entries, Denotes decodeValue depth (ofValue e.2) e.2) :
    Denotes (decode decodeValue) (depth + 1) (m.toJson ofValue) m := by
  refine ⟨.object fun member hmember ↦ ?_, ?_⟩
  · obtain ⟨e, he, rfl⟩ := List.mem_map.mp hmember
    exact (h e he).readable
  · obtain ⟨m', hm', hmembers⟩ := exists_insertMembers (m := ∅) h m.nodup_names
    obtain rfl : m' = m := ext hm'
    change (insertMembers decodeValue (Json.memberTrees _) ∅ >>= fun m ↦ pure m) = _
    rw [hmembers]
    rfl

end NameMap

/-! ## Members that may be left out -/

namespace Json.Decode.Fields.Holds

variable {α σ τ : Type} {depth : Nat} (name : String) {decode : Decoder α} {ofValue : α → Json}
  {rest : Fields σ τ} {ms : List (String × Json)} {t : τ}

theorem required {v : Json} {a : α} (h : Denotes decode depth v a) (hrest : Holds depth rest ms t) :
    Holds depth (.field (.required name decode) rest) ((name, v) :: ms) (a, t) :=
  .present h hrest

/-- A value that is never written as null need not be written at all. -/
theorem memberOf {f : Field (Option α)} (value? : Option α) (hmissing : f.missing.Supplies .none)
    (hdecode : f.decode = optional decode)
    (h : ∀ a, value? = some a → Denotes decode depth (ofValue a) a ∧ ofValue a ≠ .null)
    (hrest : Holds depth rest ms t) :
    Holds depth (.field f rest) (Json.memberOf f.name ofValue value? ++ ms) (value?, t) := by
  cases value? with
  | none => exact .absent hmissing hrest
  | some a =>
    obtain ⟨ha, hne⟩ := h a rfl
    exact .present (hdecode ▸ ha.optional hne) hrest

theorem maybe (value? : Option α)
    (h : ∀ a, value? = some a → Denotes decode depth (ofValue a) a ∧ ofValue a ≠ .null)
    (hrest : Holds depth rest ms t) :
    Holds depth (.field (.maybe name decode) rest) (Json.memberOf name ofValue value? ++ ms)
      (value?, t) :=
  memberOf _ (.inObject _) rfl h hrest

theorem option (value? : Option α)
    (h : ∀ a, value? = some a → Denotes decode depth (ofValue a) a ∧ ofValue a ≠ .null)
    (hrest : Holds depth rest ms t) :
    Holds depth (.field (.defaulted name .none (optional decode)) rest)
      (Json.memberOf name ofValue value? ++ ms) (value?, t) :=
  memberOf _ (.anywhere _) rfl h hrest

theorem memberOfList (values : List α) (h : ∀ a, Denotes decode depth (ofValue a) a)
    (hrest : Holds (depth + 1) rest ms t) :
    Holds (depth + 1) (.field (.defaulted name [] (list decode)) rest)
      (Json.memberOfList name ofValue values ++ ms) (values, t) := by
  cases values with
  | nil => exact .absent (.anywhere _) hrest
  | cons a as =>
    have hvalues : Denotes (list decode) (depth + 1) (.array ((a :: as).map ofValue)) (a :: as) :=
      .list fun b _ ↦ h b
    exact .present (f := .defaulted name [] _) hvalues hrest

theorem memberOfMap (m : NameMap α) (h : ∀ a, Denotes decode depth (ofValue a) a)
    (hrest : Holds (depth + 1) rest ms t) :
    Holds (depth + 1) (.field (.defaulted name ∅ (NameMap.decode decode)) rest)
      (Json.memberOfMap name ofValue m ++ ms) (m, t) := by
  by_cases hm : m.entries = []
  · obtain rfl : m = ∅ := NameMap.ext hm
    exact .absent (.anywhere _) hrest
  · have hfilled : m.isEmpty = false := by
      rw [NameMap.isEmpty, NameMap.Raw.isEmpty, List.isEmpty_eq_false_iff]
      exact hm
    have hmap : Denotes (NameMap.decode decode) (depth + 1) (m.toJson ofValue) m :=
      NameMap.denotes fun e _ ↦ h e.2
    rw [Json.memberOfMap, hfilled]
    exact .present (f := .defaulted name ∅ _) hmap hrest

end Json.Decode.Fields.Holds

/-! ## Attributes -/

theorem AttributeValue.denotes (value : AttributeValue) :
    Denotes AttributeValue.decode 1 value.toJson value := by
  refine ⟨?_, by cases value <;> rfl⟩
  cases value with
  | string | number => exact .object (List.forall_mem_singleton.mpr (.string _ _))
  | null => exact .object (List.forall_mem_singleton.mpr (.bool _ _))

theorem AttributeValue.toJson_ne_null (value : AttributeValue) : value.toJson ≠ .null := by
  cases value <;> rintro ⟨⟩

theorem Item.denotes (item : Item) : Denotes Item.decode 2 item.toJson item :=
  NameMap.denotes fun _ _ ↦ AttributeValue.denotes _

variable {depth : Nat}

theorem ComparisonOperator.denotes (op : ComparisonOperator) :
    Denotes ComparisonOperator.decode depth op.toJson op :=
  .variant (by cases op <;> rfl)

theorem AttributeAction.denotes (action : AttributeAction) :
    Denotes AttributeAction.decode depth action.toJson action :=
  .variant (by cases action; rfl)

theorem Condition.denotes (c : Condition) : Denotes Condition.decode 3 c.toJson c := by
  have hfields := Holds.required "ComparisonOperator" c.operator.denotes <|
    .memberOfList "AttributeValueList" c.values AttributeValue.denotes .none
  rw [List.append_nil] at hfields
  exact hfields.denotes (by simp) "Condition" _

theorem AttributeUpdate.denotes (u : AttributeUpdate) :
    Denotes AttributeUpdate.decode 2 u.toJson u := by
  have hfields := Holds.maybe "Value" u.value?
    (fun value _ ↦ ⟨value.denotes, value.toJson_ne_null⟩) <|
    .maybe "Action" u.action?
      (fun action _ ↦ ⟨action.denotes, by rintro ⟨⟩⟩) .none
  rw [List.append_nil] at hfields
  exact hfields.denotes (by simp) "AttributeValueUpdate" _

/-! ## Schemas -/

theorem KeyType.denotes (t : KeyType) : Denotes KeyType.decode depth t.toJson t :=
  .variant (by cases t <;> rfl)

theorem AttributeType.denotes (t : AttributeType) :
    Denotes AttributeType.decode depth t.toJson t :=
  .variant (by cases t <;> rfl)

theorem KeySchemaElement.denotes (e : KeySchemaElement) :
    Denotes KeySchemaElement.decode 1 e.toJson e := by
  have hfields : Holds 0 _ _ _ := .required "AttributeName" (.string e.attributeName) <|
    .required "KeyType" e.keyType.denotes .none
  exact hfields.denotes (by simp) "KeySchemaElement" _

theorem AttributeDefinition.denotes (d : AttributeDefinition) :
    Denotes AttributeDefinition.decode 1 d.toJson d := by
  have hfields : Holds 0 _ _ _ := .required "AttributeName" (.string d.attributeName) <|
    .required "AttributeType" d.attributeType.denotes .none
  exact hfields.denotes (by simp) "AttributeDefinition" _

theorem ProvisionedThroughput.denotes (t : ProvisionedThroughput) :
    Denotes ProvisionedThroughput.decode 1 t.toJson t := by
  have hfields : Holds 0 _ _ _ :=
    .required "ReadCapacityUnits" (.int64 t.readCapacityUnits) <|
    .required "WriteCapacityUnits" (.int64 t.writeCapacityUnits) .none
  exact hfields.denotes (by simp) "ProvisionedThroughput" _

/-! ## Payloads -/

theorem CreateTable.denotes (p : CreateTable) : Denotes CreateTable.decode 3 p.toJson p := by
  have hfields := Holds.required "TableName" (.string p.tableName) <|
    .required "AttributeDefinitions" (.list fun d (_ : d ∈ p.definitions) ↦ d.denotes) <|
    .required "KeySchema" (.list fun e (_ : e ∈ p.keySchema) ↦ e.denotes) <|
    .required "ProvisionedThroughput" (p.throughput.denotes.mono (by decide)) .none
  exact hfields.denotes (by simp) "CreateTableInput" _

theorem DeleteTable.denotes (p : DeleteTable) : Denotes DeleteTable.decode 1 p.toJson p := by
  have hfields : Holds 0 _ _ _ := .required "TableName" (.string p.tableName) .none
  exact hfields.denotes (by simp) "DeleteTableInput" _

theorem PutItem.denotes (p : PutItem) : Denotes PutItem.decode 3 p.toJson p := by
  have hfields := Holds.required "TableName" (.string p.tableName) <|
    .required "Item" p.item.denotes .none
  exact hfields.denotes (by simp) "PutItemInput" _

theorem UpdateItem.denotes (p : UpdateItem) : Denotes UpdateItem.decode 4 p.toJson p := by
  have hfields := Holds.required "TableName" (.string p.tableName) <|
    .required "Key" (p.key.denotes.mono (by decide)) <|
    .memberOfMap "AttributeUpdates" p.updates AttributeUpdate.denotes .none
  rw [List.append_nil] at hfields
  exact hfields.denotes (by simp) "UpdateItemInput" _

theorem DeleteItem.denotes (p : DeleteItem) : Denotes DeleteItem.decode 3 p.toJson p := by
  have hfields := Holds.required "TableName" (.string p.tableName) <|
    .required "Key" p.key.denotes .none
  exact hfields.denotes (by simp) "DeleteItemInput" _

theorem Query.denotes (p : Query) : Denotes Query.decode 5 p.toJson p := by
  have hfields := Holds.required "TableName" (.string p.tableName) <|
    .memberOfList "AttributesToGet" p.attributesToGet Denotes.string <|
    .memberOfMap "KeyConditions" p.conditions Condition.denotes <|
    .maybe "Limit" p.limit? (fun n _ ↦ ⟨.int32 n, by rintro ⟨⟩⟩) <|
    .maybe "ScanIndexForward" p.scanForward?
      (fun b _ ↦ ⟨.boolean b, by rintro ⟨⟩⟩) .none
  rw [List.append_nil, ← List.append_assoc, ← List.append_assoc] at hfields
  exact hfields.denotes (by simp) "QueryInput" _

theorem Request.denotes (r : Request) :
    Denotes (Request.decode r.operation) 5 r.toJson r := by
  cases r with
  | query p => exact p.denotes.map _
  | putItem p => exact (p.denotes.map _).mono (by decide)
  | updateItem p => exact (p.denotes.map _).mono (by decide)
  | deleteItem p => exact (p.denotes.map _).mono (by decide)
  | createTable p => exact (p.denotes.map _).mono (by decide)
  | deleteTable p => exact (p.denotes.map _).mono (by decide)

/-! ## Answers -/

/-- The cost is not known in capacity units. -/
def ConsumedCapacity.Unmeasured (c : ConsumedCapacity) : Prop :=
  c.capacityUnits? = none

theorem ConsumedCapacity.denotes {c : ConsumedCapacity} (h : c.Unmeasured) :
    Denotes ConsumedCapacity.decode 1 c.toJson c := by
  have hunits : ∀ x, c.capacityUnits? = some x →
      Denotes Json.Decode.double 0 (Json.double x) x ∧ Json.double x ≠ .null :=
    fun x hx ↦ by cases h.symm.trans hx
  have hfields := Holds.option "TableName" c.tableName?
    (fun table _ ↦ ⟨.string table, by rintro ⟨⟩⟩) <|
    .option "CapacityUnits" c.capacityUnits? hunits .none
  rw [List.append_nil] at hfields
  exact hfields.denotes (by simp) "ConsumedCapacity" _

/-- The answer says nothing of a cost in capacity units. -/
def QueryOutput.Unmeasured (o : QueryOutput) : Prop :=
  ∀ c, o.consumedCapacity? = some c → c.Unmeasured

theorem QueryOutput.denotes {o : QueryOutput} (h : o.Unmeasured) :
    Denotes QueryOutput.decode 4 o.toJson o := by
  have hfields := Holds.option "ConsumedCapacity" o.consumedCapacity?
    (fun c hc ↦ ⟨(ConsumedCapacity.denotes (h c hc)).mono (by decide), by rintro ⟨⟩⟩) <|
    .present (f := .defaulted "Count" 0 _) (.int64 o.count) <|
    .option "ScannedCount" o.scannedCount? (fun n _ ↦ ⟨.int64 n, by rintro ⟨⟩⟩) <|
    .present (f := .defaulted "Items" [] _) (.list fun item (_ : item ∈ o.items) ↦ item.denotes) <|
    .option "LastEvaluatedKey" o.lastEvaluatedKey?
      (fun item _ ↦ ⟨item.denotes.mono (by decide), by rintro ⟨⟩⟩) .none
  rw [List.append_nil] at hfields
  exact hfields.denotes (by simp) "QueryOutput" _

/-! ## All types of the wire -/

/-- A type of what goes over the wire, on its own or inside of something else. -/
inductive WireType where
  | attributeValue
  | item
  | keySchemaElement
  | attributeDefinition
  | provisionedThroughput
  | condition
  | attributeUpdate
  | createTable
  | deleteTable
  | putItem
  | updateItem
  | deleteItem
  | query
  | queryOutput
  deriving DecidableEq, Repr

namespace WireType

/-- The values of the type. -/
def Value : WireType → Type
  | .attributeValue => AttributeValue
  | .item => Item
  | .keySchemaElement => KeySchemaElement
  | .attributeDefinition => AttributeDefinition
  | .provisionedThroughput => ProvisionedThroughput
  | .condition => Condition
  | .attributeUpdate => AttributeUpdate
  | .createTable => CreateTable
  | .deleteTable => DeleteTable
  | .putItem => PutItem
  | .updateItem => UpdateItem
  | .deleteItem => DeleteItem
  | .query => Query
  | .queryOutput => QueryOutput

/-- The value as JSON. -/
def toJson : (w : WireType) → w.Value → Json
  | .attributeValue => AttributeValue.toJson
  | .item => Item.toJson
  | .keySchemaElement => KeySchemaElement.toJson
  | .attributeDefinition => AttributeDefinition.toJson
  | .provisionedThroughput => ProvisionedThroughput.toJson
  | .condition => Condition.toJson
  | .attributeUpdate => AttributeUpdate.toJson
  | .createTable => CreateTable.toJson
  | .deleteTable => DeleteTable.toJson
  | .putItem => PutItem.toJson
  | .updateItem => UpdateItem.toJson
  | .deleteItem => DeleteItem.toJson
  | .query => Query.toJson
  | .queryOutput => QueryOutput.toJson

/-- The decoder of the type. -/
def decode : (w : WireType) → Decoder w.Value
  | .attributeValue => AttributeValue.decode
  | .item => Item.decode
  | .keySchemaElement => KeySchemaElement.decode
  | .attributeDefinition => AttributeDefinition.decode
  | .provisionedThroughput => ProvisionedThroughput.decode
  | .condition => Condition.decode
  | .attributeUpdate => AttributeUpdate.decode
  | .createTable => CreateTable.decode
  | .deleteTable => DeleteTable.decode
  | .putItem => PutItem.decode
  | .updateItem => UpdateItem.decode
  | .deleteItem => DeleteItem.decode
  | .query => Query.decode
  | .queryOutput => QueryOutput.decode

/-- The value says nothing of a cost in capacity units. Only an answer can. -/
def Unmeasured : (w : WireType) → w.Value → Prop
  | .queryOutput, o => QueryOutput.Unmeasured o
  | _, _ => True

/-- The bytes that are sent for a value. -/
def toBytes (w : WireType) (v : w.Value) : Text.Bytes :=
  Text.utf8 (w.toJson v).compact

/-- The value that is received. -/
def ofBytes (w : WireType) (bytes : Text.Bytes) : Json.Decoded w.Value :=
  Json.Decode.bytes w.decode bytes

theorem denotes {w : WireType} {v : w.Value} (h : w.Unmeasured v) :
    Denotes w.decode 5 (w.toJson v) v := by
  cases w with
  | attributeValue => exact (AttributeValue.denotes v).mono (by decide)
  | item => exact (Item.denotes v).mono (by decide)
  | keySchemaElement => exact (KeySchemaElement.denotes v).mono (by decide)
  | attributeDefinition => exact (AttributeDefinition.denotes v).mono (by decide)
  | provisionedThroughput => exact (ProvisionedThroughput.denotes v).mono (by decide)
  | condition => exact (Condition.denotes v).mono (by decide)
  | attributeUpdate => exact (AttributeUpdate.denotes v).mono (by decide)
  | createTable => exact (CreateTable.denotes v).mono (by decide)
  | deleteTable => exact (DeleteTable.denotes v).mono (by decide)
  | putItem => exact (PutItem.denotes v).mono (by decide)
  | updateItem => exact (UpdateItem.denotes v).mono (by decide)
  | deleteItem => exact (DeleteItem.denotes v).mono (by decide)
  | query => exact Query.denotes v
  | queryOutput => exact (QueryOutput.denotes h).mono (by decide)

/-- What is received is what was sent. So a text that is received and sent again is, from then on,
sent unchanged. -/
theorem ofBytes_toBytes (w : WireType) :
    (∀ v : w.Value, w.Unmeasured v → w.ofBytes (w.toBytes v) = .ok v) ∧
      ∀ (text : Text.Bytes) (v : w.Value), w.ofBytes text = .ok v → w.Unmeasured v →
        (w.ofBytes (w.toBytes v)).map w.toBytes = .ok (w.toBytes v) := by
  have hround : ∀ v : w.Value, w.Unmeasured v → w.ofBytes (w.toBytes v) = .ok v :=
    fun v h ↦ (denotes h).bytes
  refine ⟨hround, fun text v _ h ↦ ?_⟩
  rw [hround v h]
  rfl

/-- An answer with an item of no value, and a last key of no attributes. -/
def sparseAnswer : QueryOutput where
  consumedCapacity? := some ⟨some "t", none⟩
  count := 1
  items := [.ofList [("b", .null), ("a", .string "\"é\"")]]
  lastEvaluatedKey? := some ∅

theorem ofBytes_toBytes_sparseAnswer :
    Unmeasured .queryOutput sparseAnswer ∧
      ofBytes .queryOutput (toBytes .queryOutput sparseAnswer) = .ok sparseAnswer ∧
      (ofBytes .queryOutput (toBytes .queryOutput sparseAnswer)).map (toBytes .queryOutput) =
        .ok (toBytes .queryOutput sparseAnswer) := by
  have h : Unmeasured .queryOutput sparseAnswer := by
    rintro c ⟨⟩
    rfl
  have hround := (ofBytes_toBytes .queryOutput).1 sparseAnswer h
  exact ⟨h, hround, (ofBytes_toBytes .queryOutput).2 _ sparseAnswer hround h⟩

end WireType

end ItemSql
