import ItemSql.Request
import ItemSql.Wire.Attribute

/-!
# The wire form of requests and answers

Every payload is a record. Its members are written in the order of its fields, and a member that
would say nothing is left out: an option that is absent, a list or a map that is empty where the
field may be missing.
-/

namespace ItemSql

open Json (Decoder)
open Json.Decode (Fields)

/-! ## Schemas -/

namespace KeyType

/-- The key type by its name. -/
def toJson (t : KeyType) : Json := .string t.wireName

/-- Decodes a key type. -/
def decode : Decoder KeyType := Json.Decode.variant all wireName

end KeyType

namespace AttributeType

/-- The attribute type by its name. -/
def toJson (t : AttributeType) : Json := .string t.wireName

/-- Decodes an attribute type. -/
def decode : Decoder AttributeType := Json.Decode.variant all wireName

end AttributeType

namespace KeySchemaElement

/-- The key attribute as a record. -/
def toJson (e : KeySchemaElement) : Json :=
  .object [("AttributeName", .string e.attributeName), ("KeyType", e.keyType.toJson)]

/-- Decodes a key attribute. -/
def decode : Decoder KeySchemaElement := fun node ↦
  (Fields.decode "KeySchemaElement"
    (.field (.required "AttributeName" Json.Decode.string) <|
     .field (.required "KeyType" KeyType.decode) <|
     .none) node).map fun (name, type, ()) ↦ ⟨name, type⟩

end KeySchemaElement

namespace AttributeDefinition

/-- The declaration as a record. -/
def toJson (d : AttributeDefinition) : Json :=
  .object [("AttributeName", .string d.attributeName), ("AttributeType", d.attributeType.toJson)]

/-- Decodes a declaration. -/
def decode : Decoder AttributeDefinition := fun node ↦
  (Fields.decode "AttributeDefinition"
    (.field (.required "AttributeName" Json.Decode.string) <|
     .field (.required "AttributeType" AttributeType.decode) <|
     .none) node).map fun (name, type, ()) ↦ ⟨name, type⟩

end AttributeDefinition

namespace ProvisionedThroughput

/-- The throughput as a record. -/
def toJson (t : ProvisionedThroughput) : Json :=
  .object [("ReadCapacityUnits", .integer t.readCapacityUnits.toInt),
    ("WriteCapacityUnits", .integer t.writeCapacityUnits.toInt)]

/-- Decodes a throughput. Both numbers must be there. -/
def decode : Decoder ProvisionedThroughput := fun node ↦
  (Fields.decode "ProvisionedThroughput"
    (.field (.required "ReadCapacityUnits" Json.Decode.int64) <|
     .field (.required "WriteCapacityUnits" Json.Decode.int64) <|
     .none) node).map fun (reads, writes, ()) ↦ ⟨reads, writes⟩

end ProvisionedThroughput

/-! ## Payloads -/

namespace CreateTable

/-- The payload as a record. Its lists are written even if they are empty. -/
def toJson (p : CreateTable) : Json :=
  .object [("TableName", .string p.tableName),
    ("AttributeDefinitions", .array (p.definitions.map AttributeDefinition.toJson)),
    ("KeySchema", .array (p.keySchema.map KeySchemaElement.toJson)),
    ("ProvisionedThroughput", p.throughput.toJson)]

/-- Decodes a payload. All of its fields must be there. -/
def decode : Decoder CreateTable := fun node ↦
  (Fields.decode "CreateTableInput"
    (.field (.required "TableName" Json.Decode.string) <|
     .field (.required "AttributeDefinitions" (Json.Decode.list AttributeDefinition.decode)) <|
     .field (.required "KeySchema" (Json.Decode.list KeySchemaElement.decode)) <|
     .field (.required "ProvisionedThroughput" ProvisionedThroughput.decode) <|
     .none) node).map fun (table, definitions, keys, throughput, ()) ↦
      ⟨table, definitions, keys, throughput⟩

end CreateTable

namespace DeleteTable

/-- The payload as a record. -/
def toJson (p : DeleteTable) : Json :=
  .object [("TableName", .string p.tableName)]

/-- Decodes a payload. -/
def decode : Decoder DeleteTable := fun node ↦
  (Fields.decode "DeleteTableInput"
    (.field (.required "TableName" Json.Decode.string) <|
     .none) node).map fun (table, ()) ↦ ⟨table⟩

end DeleteTable

namespace PutItem

/-- The payload as a record. -/
def toJson (p : PutItem) : Json :=
  .object [("TableName", .string p.tableName), ("Item", p.item.toJson)]

/-- Decodes a payload. -/
def decode : Decoder PutItem := fun node ↦
  (Fields.decode "PutItemInput"
    (.field (.required "TableName" Json.Decode.string) <|
     .field (.required "Item" Item.decode) <|
     .none) node).map fun (table, item, ()) ↦ ⟨table, item⟩

end PutItem

namespace UpdateItem

/-- The payload as a record. If there are no updates, they are left out. -/
def toJson (p : UpdateItem) : Json :=
  .object ([("TableName", .string p.tableName), ("Key", p.key.toJson)] ++
    Json.memberOfMap "AttributeUpdates" AttributeUpdate.toJson p.updates)

/-- Decodes a payload. It need have no updates. -/
def decode : Decoder UpdateItem := fun node ↦
  (Fields.decode "UpdateItemInput"
    (.field (.required "TableName" Json.Decode.string) <|
     .field (.required "Key" Item.decode) <|
     .field (.defaulted "AttributeUpdates" ∅ (NameMap.decode AttributeUpdate.decode)) <|
     .none) node).map fun (table, key, updates, ()) ↦ ⟨table, key, updates⟩

end UpdateItem

namespace DeleteItem

/-- The payload as a record. -/
def toJson (p : DeleteItem) : Json :=
  .object [("TableName", .string p.tableName), ("Key", p.key.toJson)]

/-- Decodes a payload. -/
def decode : Decoder DeleteItem := fun node ↦
  (Fields.decode "DeleteItemInput"
    (.field (.required "TableName" Json.Decode.string) <|
     .field (.required "Key" Item.decode) <|
     .none) node).map fun (table, key, ()) ↦ ⟨table, key⟩

end DeleteItem

namespace Query

/-- The payload as a record. All but the table is left out where it says nothing. -/
def toJson (p : Query) : Json :=
  .object (("TableName", .string p.tableName) ::
    (Json.memberOfList "AttributesToGet" Json.string p.attributesToGet ++
     Json.memberOfMap "KeyConditions" Condition.toJson p.conditions ++
     Json.memberOf "Limit" (fun n ↦ Json.integer n.toInt) p.limit? ++
     Json.memberOf "ScanIndexForward" Json.bool p.scanForward?))

/-- Decodes a payload. Only the table must be there. -/
def decode : Decoder Query := fun node ↦
  (Fields.decode "QueryInput"
    (.field (.required "TableName" Json.Decode.string) <|
     .field (.defaulted "AttributesToGet" [] (Json.Decode.list Json.Decode.string)) <|
     .field (.defaulted "KeyConditions" ∅ (NameMap.decode Condition.decode)) <|
     .field (.maybe "Limit" Json.Decode.int32) <|
     .field (.maybe "ScanIndexForward" Json.Decode.boolean) <|
     .none) node).map fun (table, names, conditions, limit?, forward?, ()) ↦
      ⟨table, names, conditions, limit?, forward?⟩

end Query

namespace Request

/-- The payload of a request. -/
def toJson : Request → Json
  | .query p => p.toJson
  | .putItem p => p.toJson
  | .updateItem p => p.toJson
  | .deleteItem p => p.toJson
  | .createTable p => p.toJson
  | .deleteTable p => p.toJson

/-- Decodes the payload of an operation. -/
def decode (op : Operation) : Decoder Request := fun node ↦
  match op with
  | .query => (Query.decode node).map .query
  | .putItem => (PutItem.decode node).map .putItem
  | .updateItem => (UpdateItem.decode node).map .updateItem
  | .deleteItem => (DeleteItem.decode node).map .deleteItem
  | .createTable => (CreateTable.decode node).map .createTable
  | .deleteTable => (DeleteTable.decode node).map .deleteTable

/-- The text that is sent for a request. -/
def body (r : Request) : String :=
  r.toJson.compact

end Request

/-! ## Answers -/

namespace ConsumedCapacity

/-- The cost as a record. What is not known is left out. -/
def toJson (c : ConsumedCapacity) : Json :=
  .object (Json.memberOf "TableName" Json.string c.tableName? ++
    Json.memberOf "CapacityUnits" Json.double c.capacityUnits?)

/-- Decodes a cost, of which nothing need be known. -/
def decode : Decoder ConsumedCapacity := fun node ↦
  (Fields.decode "ConsumedCapacity"
    (.field (.defaulted "TableName" none (Json.Decode.optional Json.Decode.string)) <|
     .field (.defaulted "CapacityUnits" none (Json.Decode.optional Json.Decode.double)) <|
     .none) node).map fun (table?, units?, ()) ↦ ⟨table?, units?⟩

end ConsumedCapacity

namespace QueryOutput

/-- The answer as a record. Its count and its items are always written. -/
def toJson (o : QueryOutput) : Json :=
  .object (Json.memberOf "ConsumedCapacity" ConsumedCapacity.toJson o.consumedCapacity? ++
    ("Count", Json.integer o.count.toInt) ::
    (Json.memberOf "ScannedCount" (fun n ↦ Json.integer n.toInt) o.scannedCount? ++
     ("Items", Json.array (o.items.map Item.toJson)) ::
     Json.memberOf "LastEvaluatedKey" Item.toJson o.lastEvaluatedKey?))

/-- Decodes an answer. It may leave out everything, and then it has no items. -/
def decode : Decoder QueryOutput := fun node ↦
  (Fields.decode "QueryOutput"
    (.field (.defaulted "ConsumedCapacity" none (Json.Decode.optional ConsumedCapacity.decode)) <|
     .field (.defaulted "Count" 0 Json.Decode.int64) <|
     .field (.defaulted "ScannedCount" none (Json.Decode.optional Json.Decode.int64)) <|
     .field (.defaulted "Items" [] (Json.Decode.list Item.decode)) <|
     .field (.defaulted "LastEvaluatedKey" none (Json.Decode.optional Item.decode)) <|
     .none) node).map fun (capacity?, count, scanned?, items, last?, ()) ↦
      ⟨capacity?, count, scanned?, items, last?⟩

end QueryOutput

end ItemSql
