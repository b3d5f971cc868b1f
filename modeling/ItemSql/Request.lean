import ItemSql.Condition
import ItemSql.Schema

/-!
# Requests and responses

A statement becomes one request, and a request addresses one table with one of six operations. Only
a query is answered with items; the other operations are merely acknowledged.
-/

namespace ItemSql

/-! ## Operations -/

/-- What the store can be asked to do. -/
inductive Operation where
  | createTable
  | deleteTable
  | putItem
  | updateItem
  | deleteItem
  | query
  deriving DecidableEq, Repr

namespace Operation

/-- All operations. -/
def all : List Operation :=
  [.createTable, .deleteTable, .putItem, .updateItem, .deleteItem, .query]

/-- The name of an operation on the wire. -/
def wireName : Operation → String
  | .createTable => "CreateTable"
  | .deleteTable => "DeleteTable"
  | .putItem => "PutItem"
  | .updateItem => "UpdateItem"
  | .deleteItem => "DeleteItem"
  | .query => "Query"

/-- The operation of a name. -/
def ofWireName? (name : String) : Option Operation :=
  all.find? fun op ↦ op.wireName = name

/-- Names the service and the operation to the store, in one word. -/
def target (op : Operation) (service : String) : String :=
  service ++ "." ++ op.wireName

/-- Whether the answer carries items. -/
def returnsRows (op : Operation) : Bool :=
  op = .query

end Operation

/-! ## Payloads -/

/-- Asks for a table. -/
structure CreateTable where
  tableName : String
  definitions : List AttributeDefinition
  keySchema : List KeySchemaElement
  throughput : ProvisionedThroughput
  deriving DecidableEq, Repr

/-- Asks that a table be dropped. -/
structure DeleteTable where
  tableName : String
  deriving DecidableEq, Repr

/-- Asks that an item be stored, in place of the one with its key if there is one. -/
structure PutItem where
  tableName : String
  item : Item
  deriving DecidableEq

/-- Asks that the item of a key be changed. -/
structure UpdateItem where
  tableName : String
  key : Item
  updates : NameMap AttributeUpdate
  deriving DecidableEq

/-- Asks that the item of a key be removed. -/
structure DeleteItem where
  tableName : String
  key : Item
  deriving DecidableEq

/-- Asks for the items that meet all conditions. -/
structure Query where
  tableName : String
  /-- The attributes to return; all of them if none is listed. -/
  attributesToGet : List String
  conditions : NameMap Condition
  /-- The most items to return. -/
  limit? : Option Int32
  /-- Whether the items come in ascending order of the range key; so they do unless this says
  otherwise. -/
  scanForward? : Option Bool
  deriving DecidableEq

/-- One request to the store. -/
inductive Request where
  | query (payload : Query)
  | putItem (payload : PutItem)
  | updateItem (payload : UpdateItem)
  | deleteItem (payload : DeleteItem)
  | createTable (payload : CreateTable)
  | deleteTable (payload : DeleteTable)
  deriving DecidableEq

namespace Request

/-- The operation a request asks for. -/
def operation : Request → Operation
  | .query _ => .query
  | .putItem _ => .putItem
  | .updateItem _ => .updateItem
  | .deleteItem _ => .deleteItem
  | .createTable _ => .createTable
  | .deleteTable _ => .deleteTable

/-- The table a request addresses. -/
def tableName : Request → String
  | .query p => p.tableName
  | .putItem p => p.tableName
  | .updateItem p => p.tableName
  | .deleteItem p => p.tableName
  | .createTable p => p.tableName
  | .deleteTable p => p.tableName

/-- The columns a request lists, if it is a query that lists any. -/
def projectedColumns? : Request → Option (List String)
  | .query p => if p.attributesToGet.isEmpty then none else some p.attributesToGet
  | _ => none

end Request

/-! ## Answers -/

/-- What an operation has cost. -/
structure ConsumedCapacity where
  tableName? : Option String := none
  capacityUnits? : Option Float := none
  deriving Repr

/-- The answer to a query. -/
structure QueryOutput where
  consumedCapacity? : Option ConsumedCapacity := none
  /-- The number of items returned. -/
  count : Int64 := 0
  /-- The number of items looked at. -/
  scannedCount? : Option Int64 := none
  items : List Item := []
  /-- The key at which the query stopped before the end. -/
  lastEvaluatedKey? : Option Item := none

end ItemSql
