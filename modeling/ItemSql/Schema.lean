import ItemSql.Text.Case

/-!
# Table schemas

What the store is told when a table is created: the attributes that are declared, which of them are
keys and of what kind, and how much throughput is reserved.

Each closed vocabulary of the wire is an enumeration here. `wireName` is its one spelling on the
wire, and `all` lists its members in the order in which the wire's diagnostics name them.
-/

namespace ItemSql

/-! ## Vocabularies -/

/-- The role of a key attribute: `hash` places an item, `range` orders the items of one place. -/
inductive KeyType where
  | hash
  | range
  deriving DecidableEq, Repr

namespace KeyType

/-- Both key types. -/
def all : List KeyType := [.hash, .range]

/-- The key type on the wire. -/
def wireName : KeyType → String
  | .hash => "HASH"
  | .range => "RANGE"

/-- The key type that a constraint word of a statement asks for. -/
def ofConstraint? (word : String) : Option KeyType :=
  if Text.equalsIgnoringCase word "hash" then some .hash
  else if Text.equalsIgnoringCase word "range" then some .range
  else none

end KeyType

/-- The type of a declared attribute. -/
inductive AttributeType where
  | string
  | stringSet
  | number
  | numberSet
  | binary
  | binarySet
  deriving DecidableEq, Repr

namespace AttributeType

/-- All attribute types. -/
def all : List AttributeType :=
  [.string, .stringSet, .number, .numberSet, .binary, .binarySet]

/-- The attribute type on the wire. -/
def wireName : AttributeType → String
  | .string => "S"
  | .stringSet => "SS"
  | .number => "N"
  | .numberSet => "NS"
  | .binary => "B"
  | .binarySet => "BS"

/-- The name of a type in a statement. -/
def word : AttributeType → String
  | .string => "string"
  | .stringSet => "stringset"
  | .number => "number"
  | .numberSet => "numberset"
  | .binary => "binary"
  | .binarySet => "binaryset"

/-- The type that a word of a statement names. -/
def ofWord? (word : String) : Option AttributeType :=
  all.find? fun t ↦ t.word = Text.lowerAscii word

end AttributeType

/-! ## Declarations -/

/-- An attribute that is a key, and its role. -/
structure KeySchemaElement where
  attributeName : String
  keyType : KeyType
  deriving DecidableEq, Repr

/-- An attribute and its type. -/
structure AttributeDefinition where
  attributeName : String
  attributeType : AttributeType
  deriving DecidableEq, Repr

/-- The reads and writes that are reserved for each second. A table has one of each unless more is
asked for. -/
structure ProvisionedThroughput where
  readCapacityUnits : Int64 := 1
  writeCapacityUnits : Int64 := 1
  deriving DecidableEq, Repr, Inhabited

end ItemSql
