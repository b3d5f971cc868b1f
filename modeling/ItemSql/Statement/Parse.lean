import ItemSql.Request
import ItemSql.Statement.Clause

/-!
# From a statement to its request

The first word of a statement tells which of the six forms it has. A form is read from left to
right, and nothing is answered but the request of a whole statement or the first error.
-/

namespace ItemSql.Statement

open ItemSql.Parser

/-! ## Queries -/

/-- A limit, if one is next. Only one may be given. -/
def limit (given? : Option Int32) : Parser (Option Int32) := do
  let t ← peek
  if isKeyword t "limit" then
    let _ ← next
    if given?.isSome then unexpected t .oneLimit
    else
      let value ← expect .number
      match Decimal.int32? value with
      | some n => if 0 ≤ n then return some n else fail (.invalidLimit value)
      | none => fail (.invalidLimit value)
  else return given?

/-- The columns of a query. None are listed by a wildcard or by nothing at all. -/
def columns : Parser (List String) := do
  if ← eat .wildcard then return []
  else
    let t ← peek
    if isKeyword t "from" then return [] else chain identifier comma

/-- The conditions of a query, if there are any. -/
def conditions : Parser (NameMap Condition) := do
  if ← eatKeyword "where" then return Expression.conditions (← chain expression conjunction)
  else return ∅

/-- The order of a query, if one is asked for: whether it is ascending. The name it goes by does not
matter, since a table has one order only. -/
def order : Parser (Option Bool) := do
  if ← eatKeyword "order" then
    expectKeyword "by"
    let _ ← identifier
    if ← eatKeyword "desc" then return some false
    else
      let _ ← eatKeyword "asc"
      return some true
  else return none

/-- `[* | name, …] from table [limit n] [where …] [order by name [asc | desc]] [limit n]` -/
def select : Parser Request := do
  let names ← columns
  expectKeyword "from"
  let table ← identifier
  let early? ← limit none
  let conditions ← conditions
  let forward? ← order
  let limit? ← limit early?
  finish
  return .query ⟨table, names, conditions, limit?, forward?⟩

/-! ## Items -/

/-- `into table (name, …) values (literal, …)` -/
def insert : Parser Request := do
  expectKeyword "into"
  let table ← identifier
  let names ← parenthesized identifier
  expectKeyword "values"
  let values ← parenthesized literal
  finish
  if names.length = values.length then
    return .putItem ⟨table, .ofList (names.zip values)⟩
  else fail (.columnCountMismatch names.length values.length)

/-- `table set name = literal, … where name = literal …` -/
def update : Parser Request := do
  let table ← identifier
  expectKeyword "set"
  let updates ← chain assignment comma
  expectKeyword "where"
  let key ← chain assignment conjunction
  finish
  return .updateItem ⟨table, Expression.key key, Expression.updates updates⟩

/-- `from table where name = literal and …` -/
def delete : Parser Request := do
  expectKeyword "from"
  let table ← identifier
  expectKeyword "where"
  let key ← chain assignment (eatKeyword "and")
  finish
  return .deleteItem ⟨table, Expression.key key⟩

/-! ## Tables -/

/-- `table name` -/
def drop : Parser Request := do
  expectKeyword "table"
  let table ← identifier
  finish
  return .deleteTable ⟨table⟩

/-- A declared attribute, and the key it is if it is one. -/
structure Declaration where
  definition : AttributeDefinition
  key? : Option KeySchemaElement
  deriving DecidableEq, Repr

/-- The type of an attribute. -/
def typeWord : Parser AttributeType := do
  let t ← next
  if t.kind = .typeName then
    match AttributeType.ofWord? t.text with
    | some type => return type
    | none => unexpected t (.kind .typeName)
  else unexpected t (.kind .typeName)

/-- The constraint on an attribute, if there is one: what kind of key it is. -/
def keyConstraint : Parser (Option KeyType) := do
  let t ← peek
  if t.kind = .constraint then
    let _ ← next
    match KeyType.ofConstraint? t.text with
    | some type => return some type
    | none => unexpected t .keyConstraint
  else return none

/-- `name type [hash | range]` -/
def declaration : Parser Declaration := do
  let name ← identifier
  let type ← typeWord
  let keyType? ← keyConstraint
  return ⟨⟨name, type⟩, keyType?.map fun keyType ↦ ⟨name, keyType⟩⟩

/-- A change of the throughput that a table is given: `read = n` or `write = n`. Whatever token
stands for the number is taken, and the number is looked at before the name. -/
def capacity : Parser (ProvisionedThroughput → ProvisionedThroughput) := do
  let name ← identifier
  equals
  let t ← next
  match Decimal.int64? t.text with
  | none => fail (.invalidThroughput name t.text)
  | some units =>
    if Text.lowerAscii name = "read" then return fun p ↦ { p with readCapacityUnits := units }
    else if Text.lowerAscii name = "write" then
      return fun p ↦ { p with writeCapacityUnits := units }
    else fail (.invalidThroughput name t.text)

/-- The throughput of a table, if one is asked for. Of several numbers for one thing the last
holds. -/
def throughput : Parser ProvisionedThroughput := do
  if ← eatKeyword "with" then
    let changes ← parenthesized capacity
    return changes.foldl (fun p change ↦ change p) {}
  else return {}

/-- `table name (declaration, …) [with (read = n, write = n)]` -/
def create : Parser Request := do
  expectKeyword "table"
  let table ← identifier
  let declarations ← parenthesized declaration
  let throughput ← throughput
  finish
  return .createTable
    ⟨table, declarations.map (·.definition), declarations.filterMap (·.key?), throughput⟩

/-! ## Statements -/

/-- A whole statement. -/
def statement : Parser Request := do
  let t ← next
  if isKeyword t "select" then select
  else if isKeyword t "insert" then insert
  else if isKeyword t "update" then update
  else if isKeyword t "create" then create
  else if isKeyword t "delete" then delete
  else if isKeyword t "drop" then drop
  else fail (.unknownStatement t.text)

/-- The request of a statement. -/
def parse (source : String) : Except SyntaxError Request :=
  match statement (Token.scan source) with
  | .done request _ => .ok request
  | .failed cause _ => .error ⟨cause, source⟩

end ItemSql.Statement
