import ItemSql.Connection
import ItemSql.Decimal.Double
import ItemSql.Json.Place
import ItemSql.Sort

/-!
# A store in memory

The store keeps tables, and a table keeps items in the order in which they came. It speaks the wire:
a target, whose last part names the operation, and a body. Every body that is JSON is recorded with
its target, whatever comes of it.

The key of an item is what it has for the attributes of the key schema, which may be nothing. Two
values are one key if they are the same text of the same type; a comparison in a query is by value.

The items that a query finds are sorted by their range key. Some of them may have none, or one of
another type, and tie with all others. This is no order then, and the sort may break off. A request
that breaks off has no answer at all, not even an error.
-/

namespace ItemSql

/-! ## Comparing values -/

namespace AttributeValue

/-- The order of two values: strings by their characters, numbers as doubles. Values of different
types have none, nor have texts that are no numbers. -/
def compare? : AttributeValue → AttributeValue → Option Ordering
  | .string x, .string y => some (compare x y)
  | .number x, .number y => do Decimal.compare? (← Decimal.double? x) (← Decimal.double? y)
  | _, _ => none

/-- Whether a string begins with another. -/
def beginsWith (value start : AttributeValue) : Bool :=
  match value, start with
  | .string content, .string start => start.toList.isPrefixOf content.toList
  | _, _ => false

end AttributeValue

namespace Condition

/-- Whether a value meets a condition. Equality holds with any of the condition's values, a range is
between the first two, and every other comparison is with the last. -/
def holdsOf (c : Condition) (value : AttributeValue) : Bool :=
  let last := c.values.getLast?.bind value.compare?
  match c.operator with
  | .eq => c.values.any fun v ↦ value.compare? v = some .eq
  | .lt => last = some .lt
  | .le => last = some .lt || last = some .eq
  | .gt => last = some .gt
  | .ge => last = some .gt || last = some .eq
  | .beginsWith => c.values.getLast?.any value.beginsWith
  | .between =>
    match c.values with
    | low :: high :: _ =>
      (value.compare? low = some .gt || value.compare? low = some .eq) &&
        (value.compare? high = some .lt || value.compare? high = some .eq)
    | _ => false

/-- Whether an attribute meets a condition. One that the item has not does not. -/
def satisfiedBy (c : Condition) (value? : Option AttributeValue) : Bool :=
  value?.any c.holdsOf

end Condition

/-! ## Tables -/

/-- The items of a table, and which of their attributes are keys. -/
structure Table where
  keySchema : List KeySchemaElement
  items : List Item
  deriving DecidableEq

namespace Table

/-- The key of an item. -/
def keyOf (t : Table) (item : Item) : List (Option AttributeValue) :=
  t.keySchema.map fun element ↦ item.get? element.attributeName

/-- The place of the first item with the key of this one. -/
def position? (t : Table) (key : Item) : Option Nat :=
  t.items.findIdx? fun item ↦ t.keyOf item = t.keyOf key

/-- The first range key. -/
def rangeKey? (t : Table) : Option String :=
  (t.keySchema.find? fun element ↦ element.keyType = .range).map (·.attributeName)

/-- Puts an item in the place of the one with its key, or behind all others. -/
def put (t : Table) (item : Item) : Table :=
  match t.position? item with
  | some i => { t with items := t.items.set i item }
  | none => { t with items := t.items ++ [item] }

/-- Removes the item of a key, if there is one. -/
def remove (t : Table) (key : Item) : Table :=
  match t.position? key with
  | some i => { t with items := t.items.eraseIdx i }
  | none => t

/-- Applies updates to an item, one by one, up to the first that carries no value. That one is
answered too. -/
def applyUpdates : List (String × AttributeUpdate) → Item → Item × Option (String × AttributeUpdate)
  | [], item => (item, none)
  | (name, update) :: rest, item =>
    match update.value? with
    | some value => applyUpdates rest (item.insert name value)
    | none => (item, some (name, update))

/-- Updates the item of a key. If there is none, the key becomes an item first. An update that
carries no value is answered; the updates before it hold. -/
def update (t : Table) (key : Item) (updates : NameMap AttributeUpdate) :
    Table × Option (String × AttributeUpdate) :=
  let (i, items) :=
    match t.position? key with
    | some i => (i, t.items)
    | none => (t.items.length, t.items ++ [key])
  match items[i]? with
  | some item =>
    let (item, failed?) := applyUpdates updates.toList item
    ({ t with items := items.set i item }, failed?)
  | none => (t, none)

/-! ### Queries -/

/-- The order of two items by an attribute. Items that cannot be compared are equal. -/
def rank (name : String) (x y : Item) : Ordering :=
  match x.get? name, y.get? name with
  | some a, some b => (a.compare? b).getD .eq
  | _, _ => .eq

/-- The items that meet every condition. -/
def matching (t : Table) (conditions : NameMap Condition) : List Item :=
  t.items.filter fun item ↦
    conditions.entries.all fun (name, condition) ↦ condition.satisfiedBy (item.get? name)

/-- Items by the range key, from the least to the greatest, unless the sort breaks off. -/
def sorted? (t : Table) (items : List Item) : Option (List Item) :=
  match t.rangeKey? with
  | some name => Sort.sort (fun x y ↦ rank name x y = .lt) items
  | none => some items

/-- Items in the order in which a query returns them, unless the sort breaks off. -/
def arrange (t : Table) (forward? : Option Bool) (items : List Item) : Option (List Item) :=
  (t.sorted? items).map fun ascending ↦
    if forward? = some false then ascending.reverse else ascending

/-- The first items, up to a limit if there is one. A negative limit leaves none. -/
def cut (limit? : Option Int32) (items : List Item) : List Item :=
  match limit? with
  | some n => items.take n.toInt.toNat
  | none => items

/-- The attributes of an item that are asked for; all of them if none is listed. -/
def narrow (names : List String) (item : Item) : Item :=
  if names.isEmpty then item else item.restrict names.contains

/-- The answer to a query that finds some items, which are arranged. The number of items returned is
as great as it can be where they are too many for 64 bits, and the number of items found is left out
there. -/
def output (q : Query) (found arranged : List Item) : QueryOutput :=
  let items := (cut q.limit? arranged).map (narrow q.attributesToGet)
  { count := (Decimal.toInt64? items.length).getD Int64.maxValue
    scannedCount? := Decimal.toInt64? found.length
    items := items }

/-- The answer to a query, unless the sort breaks off. -/
def query (t : Table) (q : Query) : Option QueryOutput :=
  let found := t.matching q.conditions
  (t.arrange q.scanForward? found).map (output q found)

end Table

/-! ## The store -/

/-- Tables by name, and what was asked of them. -/
structure Store where
  tables : NameMap Table
  /-- The targets and the bodies of all requests, the first one first. -/
  requests : List (String × Json)

namespace Store

/-- The store of no tables. -/
def empty : Store := ⟨∅, []⟩

/-- The number of items of a table. -/
def itemCount (s : Store) (table : String) : Nat :=
  ((s.tables.get? table).map fun t ↦ t.items.length).getD 0

/-- What a request is answered with: an error or a text. One that breaks off has no answer. -/
abbrev Answer := Option (Except ServiceError String)

/-- What comes of a request: the answer, and the tables behind it. -/
abbrev Result := Answer × NameMap Table

/-- The answer that says no more than that all went well. -/
def acknowledgement : String := "\x7b\x7d"

/-- The error of a table that does not exist. -/
def tableNotFound (table : String) : ServiceError :=
  .ofCode .resourceNotFound ("table not found: " ++ table)

/-- The error of an update that carries no value. -/
def updateWithoutValue (name : String) (update : AttributeUpdate) : ServiceError :=
  .ofCode .validation
    ((update.action?.getD default).wireName ++ " of " ++ name ++ " carries no value")

/-- Changes a table that exists. -/
def onTable (tables : NameMap Table) (table : String)
    (change : Table → Answer × Table) : Result :=
  match tables.get? table with
  | none => (some (.error (tableNotFound table)), tables)
  | some t =>
    let (answer, t) := change t
    (answer, tables.insert table t)

/-- Does what a request asks for. -/
def perform (tables : NameMap Table) : Request → Result
  | .createTable p =>
    if tables.contains p.tableName then
      (some (.error (.ofCode .resourceInUse p.tableName)), tables)
    else (some (.ok acknowledgement), tables.insert p.tableName ⟨p.keySchema, []⟩)
  | .deleteTable p =>
    if tables.contains p.tableName then
      (some (.ok acknowledgement), tables.erase p.tableName)
    else (some (.error (tableNotFound p.tableName)), tables)
  | .putItem p => onTable tables p.tableName fun t ↦ (some (.ok acknowledgement), t.put p.item)
  | .updateItem p =>
    onTable tables p.tableName fun t ↦
      match t.update p.key p.updates with
      | (t, none) => (some (.ok acknowledgement), t)
      | (t, some (name, update)) => (some (.error (updateWithoutValue name update)), t)
  | .deleteItem p => onTable tables p.tableName fun t ↦ (some (.ok acknowledgement), t.remove p.key)
  | .query p =>
    onTable tables p.tableName fun t ↦
      ((t.query p).map fun output ↦ .ok output.toJson.compact, t)

/-- The operation that a target names behind its last point. -/
def operationOf? (target : String) : Option Operation :=
  (ErrorCode.behindLast? '.' target.toList).bind fun name ↦
    Operation.ofWireName? (String.ofList name)

/-- Answers a request that was recorded. -/
def answer (tables : NameMap Table) (target : String) (body : Text.Bytes) : Result :=
  match operationOf? target with
  | none => (some (.error (.ofCode .unrecognizedClient target)), tables)
  | some op =>
    match Json.Decode.bytes (Request.decode op) body with
    | .ok request => perform tables request
    | .error e =>
      let place := Json.placeOf (Request.decode op) body e
      (some (.error (.ofCode .serialization (e.report place))), tables)

/-- The response that an answer is sent as. -/
def respond (answer : Except ServiceError String) : Response :=
  (answer.map Text.utf8).mapError .service

/-- Takes a request. If it breaks off, there is no response. -/
def send (s : Store) (target : String) (body : Text.Bytes) : Option Response × Store :=
  match Json.ofBytes body with
  | .error f => (some (.error (.other (.codec (.fault f)))), s)
  | .ok json =>
    let (answer, tables) := answer s.tables target body
    (answer.map respond, ⟨tables, s.requests ++ [(target, json)]⟩)

/-- The store as a transport. What is run over it breaks off where a request does. -/
def transport : Transport (OptionT (StateM Store)) := fun target body ↦
  OptionT.mk fun s ↦ s.send target body

end Store

end ItemSql
