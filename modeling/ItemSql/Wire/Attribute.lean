import ItemSql.Condition
import ItemSql.Json.Decode

/-!
# The wire form of attributes

An attribute value is an object of one member: its name is the type, its value the content. The
object of no member stands for no value too. An attribute map is an object whose members keep the
order of the map.
-/

namespace ItemSql

open Json (Decoder Decoded ofFault)

/-! ## Values -/

namespace AttributeValue

/-- The names of the types on the wire. -/
def typeKeys : List String := ["S", "N", "NULL"]

/-- The value as an object of one member. No value has the member `NULL`. -/
def toJson : AttributeValue → Json
  | .string content => .object [("S", .string content)]
  | .number text => .object [("N", .string text)]
  | .null => .object [("NULL", .bool true)]

/-- Decodes the content of a value by the name of its type. The content of no value is passed
over. -/
def content (key : String) : Decoder AttributeValue := fun node ↦
  if key = "S" then (Json.Decode.string node).map .string
  else if key = "N" then (Json.Decode.string node).map .number
  else if key = "NULL" then
    match node.fault? with
    | some f => .error (.fault f)
    | none => .ok .null
  else .error (.unknownField key typeKeys)

/-- Decodes a value. A second type is refused as soon as its name is read. -/
def decode : Decoder AttributeValue
  | .object [] ending => do
    ending.check
    return .null
  | .object ((name, node) :: more) ending => do
    let key ← ofFault name.name
    let value ← content key node
    match more with
    | [] => do
      ending.check
      return value
    | (second, _) :: _ => do
      let _ ← ofFault second.name
      throw .manyTypes
  | node => Json.Decode.mismatch "an attribute value object with at most one type key" node

end AttributeValue

/-! ## Maps -/

namespace NameMap

variable {α : Type}

/-- The entries as an object, its members in their order. -/
def Raw.toJson (ofValue : α → Json) (r : Raw α) : Json :=
  .object (r.entries.map fun (name, value) ↦ (name, ofValue value))

/-- The map as an object, its members in the order of the map. -/
def toJson (ofValue : α → Json) (m : NameMap α) : Json :=
  m.toRaw.toJson ofValue

/-- Inserts the members of an object one by one. -/
def insertMembers (decode : Decoder α) :
    List (Json.Node × Json.Node) → NameMap α → Decoded (NameMap α)
  | [], m => .ok m
  | (n, node) :: members, m => do
    let name ← ofFault n.name
    let value ← decode node
    insertMembers decode members (m.insert name value)

/-- Decodes a map of values. -/
def decode (decodeValue : Decoder α) : Decoder (NameMap α)
  | .object members ending => do
    let m ← insertMembers decodeValue members ∅
    ending.check
    return m
  | node => Json.Decode.mismatch "a map keyed by attribute name" node

end NameMap

namespace Item

/-- The item as an object of its attributes. -/
def toJson (item : Item) : Json :=
  NameMap.toJson AttributeValue.toJson item

/-- Decodes an item. -/
def decode : Decoder Item :=
  NameMap.decode AttributeValue.decode

end Item

/-! ## Conditions and updates -/

namespace ComparisonOperator

/-- The operator by its name. -/
def toJson (op : ComparisonOperator) : Json := .string op.wireName

/-- Decodes an operator. -/
def decode : Decoder ComparisonOperator := Json.Decode.variant all wireName

end ComparisonOperator

namespace AttributeAction

/-- The action by its name. -/
def toJson (action : AttributeAction) : Json := .string action.wireName

/-- Decodes an action. -/
def decode : Decoder AttributeAction := Json.Decode.variant all wireName

end AttributeAction

/-- The member of a field that is written only if there is a value for it. -/
def Json.memberOf {α : Type} (name : String) (ofValue : α → Json) (value? : Option α) :
    List (String × Json) :=
  (value?.map fun value ↦ (name, ofValue value)).toList

/-- The member of a list that is written only if the list is not empty. -/
def Json.memberOfList {α : Type} (name : String) (ofValue : α → Json) (values : List α) :
    List (String × Json) :=
  if values.isEmpty then [] else [(name, .array (values.map ofValue))]

/-- The member of a map that is written only if the map is not empty. -/
def Json.memberOfMap {α : Type} (name : String) (ofValue : α → Json) (m : NameMap α) :
    List (String × Json) :=
  if m.isEmpty then [] else [(name, m.toJson ofValue)]

namespace Condition

/-- The condition as a record. An empty list of values is left out. -/
def toJson (c : Condition) : Json :=
  .object (("ComparisonOperator", c.operator.toJson) ::
    Json.memberOfList "AttributeValueList" AttributeValue.toJson c.values)

/-- Decodes a condition. Without a list of values it has none. -/
def decode : Decoder Condition := fun node ↦
  (Json.Decode.Fields.decode "Condition"
    (.field (.required "ComparisonOperator" ComparisonOperator.decode) <|
     .field (.defaulted "AttributeValueList" [] (Json.Decode.list AttributeValue.decode)) <|
     .none) node).map fun (operator, values, ()) ↦ ⟨operator, values⟩

end Condition

namespace AttributeUpdate

/-- The update as a record. What it does not carry is left out. -/
def toJson (u : AttributeUpdate) : Json :=
  .object (Json.memberOf "Value" AttributeValue.toJson u.value? ++
    Json.memberOf "Action" AttributeAction.toJson u.action?)

/-- Decodes an update. It need carry neither a value nor an action. -/
def decode : Decoder AttributeUpdate := fun node ↦
  (Json.Decode.Fields.decode "AttributeValueUpdate"
    (.field (.maybe "Value" AttributeValue.decode) <|
     .field (.maybe "Action" AttributeAction.decode) <|
     .none) node).map fun (value?, action?, ()) ↦ ⟨value?, action?⟩

end AttributeUpdate

end ItemSql
