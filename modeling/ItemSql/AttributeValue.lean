import ItemSql.NameMap
import ItemSql.Text.Escaped

/-!
# Attribute values

The store keeps scalars: a string, a number, or no value at all. A number is kept as the decimal
text it was written with, so nothing is lost between a statement and the store; it is read as a
number only where a comparison or a row needs one.
-/

namespace ItemSql

/-- A scalar as the store keeps it. -/
inductive AttributeValue where
  | string (content : String)
  /-- A number, by its decimal text. -/
  | number (text : String)
  | null
  deriving DecidableEq, Repr, Inhabited

namespace AttributeValue

/-- The content of a string. -/
def string? : AttributeValue → Option String
  | .string content => some content
  | _ => none

/-- The value in words for a reader: its type and its content in braces. -/
def display : AttributeValue → String
  | .string content => "\x7bS: " ++ content ++ "\x7d"
  | .number text => "\x7bN: " ++ text ++ "\x7d"
  | .null => "\x7bNULL\x7d"

/-- The value for diagnosis: its type and its content, escaped. -/
def inspect : AttributeValue → String
  | .string content => "S(" ++ Text.escaped content ++ ")"
  | .number text => "N(" ++ Text.escaped text ++ ")"
  | .null => "Null"

end AttributeValue

/-- A record of the store: attribute values by the names of the attributes. -/
abbrev Item := NameMap AttributeValue

/-- The item for diagnosis: its names, escaped, and its values. -/
def Item.inspect (item : Item) : String :=
  let entries := item.entries.map fun (name, value) ↦
    Text.escaped name ++ ": " ++ value.inspect
  "\x7b" ++ String.intercalate ", " entries ++ "\x7d"

end ItemSql
