import ItemSql.Decimal.Layout

/-!
# JSON values and their texts

A value is written in two ways: compactly, with nothing between its parts, for the wire; and set out
over lines, two spaces for each level, for a reader. Members are written in the order in which the
value has them.
-/

namespace ItemSql

/-- A JSON value. -/
inductive Json where
  | null
  | bool (b : Bool)
  | integer (n : Int)
  | double (x : Float)
  | string (text : String)
  | array (items : List Json)
  | object (members : List (String × Json))
  deriving Inhabited

namespace Json

/-! ## Texts of scalars -/

/-- A hexadecimal digit, in lower case. -/
def hexDigit (n : Nat) : Char :=
  Nat.digitChar n

/-- A character as it stands in a string: only quotes, backslashes and controls are escaped. -/
def escape (c : Char) : List Char :=
  if c = '"' then ['\\', '"']
  else if c = '\\' then ['\\', '\\']
  else if c = '\x08' then ['\\', 'b']
  else if c = '\t' then ['\\', 't']
  else if c = '\n' then ['\\', 'n']
  else if c = '\x0c' then ['\\', 'f']
  else if c = '\r' then ['\\', 'r']
  else if c.toNat < 0x20 then
    ['\\', 'u', '0', '0', hexDigit (c.toNat / 16), hexDigit (c.toNat % 16)]
  else [c]

/-- The characters of a string in quotes. -/
def quoted (text : String) : List Char :=
  '"' :: text.toList.flatMap escape ++ ['"']

/-- The characters of a truth value. -/
def boolChars (b : Bool) : List Char :=
  if b then "true".toList else "false".toList

/-- The characters of a double. One that is not finite has no number and is written as null. -/
def doubleChars (x : Float) : List Char :=
  if x.isFinite then (Decimal.Layout.scientific.write x.toBits).toList else "null".toList

/-! ## The compact text -/

mutual

/-- The characters of a value with nothing between its parts. -/
def compactChars : Json → List Char
  | .null => "null".toList
  | .bool b => boolChars b
  | .integer n => Decimal.intChars n
  | .double x => doubleChars x
  | .string text => quoted text
  | .array items => '[' :: compactItems items ++ [']']
  | .object members => '\x7b' :: compactMembers members ++ ['\x7d']

/-- The characters of the items of an array, with commas between them. -/
def compactItems : List Json → List Char
  | [] => []
  | [v] => compactChars v
  | v :: vs => compactChars v ++ ',' :: compactItems vs

/-- The characters of the members of an object, with commas between them. -/
def compactMembers : List (String × Json) → List Char
  | [] => []
  | [(name, v)] => quoted name ++ ':' :: compactChars v
  | (name, v) :: ms => quoted name ++ ':' :: compactChars v ++ ',' :: compactMembers ms

end

/-- The text of a value with nothing between its parts. -/
def compact (v : Json) : String :=
  String.ofList v.compactChars

/-! ## The text over lines -/

/-- A new line at the given level. -/
def newLine (level : Nat) : List Char :=
  '\n' :: List.replicate (2 * level) ' '

mutual

/-- The characters of a value over lines; its own lines begin at the given level. -/
def prettyChars (level : Nat) : Json → List Char
  | .null => "null".toList
  | .bool b => boolChars b
  | .integer n => Decimal.intChars n
  | .double x => doubleChars x
  | .string text => quoted text
  | .array [] => ['[', ']']
  | .array items => '[' :: prettyItems (level + 1) items ++ newLine level ++ [']']
  | .object [] => ['\x7b', '\x7d']
  | .object members => '\x7b' :: prettyMembers (level + 1) members ++ newLine level ++ ['\x7d']

/-- The characters of the items of an array, each on lines of its own. -/
def prettyItems (level : Nat) : List Json → List Char
  | [] => []
  | [v] => newLine level ++ prettyChars level v
  | v :: vs => newLine level ++ prettyChars level v ++ ',' :: prettyItems level vs

/-- The characters of the members of an object, each on lines of its own. -/
def prettyMembers (level : Nat) : List (String × Json) → List Char
  | [] => []
  | [(name, v)] => newLine level ++ quoted name ++ ':' :: ' ' :: prettyChars level v
  | (name, v) :: ms =>
    newLine level ++ quoted name ++ ':' :: ' ' :: prettyChars level v ++
      ',' :: prettyMembers level ms

end

/-- The text of a value over lines. -/
def pretty (v : Json) : String :=
  String.ofList (v.prettyChars 0)

/-! ## Members in order of their names -/

/-- Puts a member among members that are in order of their names. A member of the same name gives
way. -/
def insertMember (name : String) (v : Json) : List (String × Json) → List (String × Json)
  | [] => [(name, v)]
  | (n, w) :: ms =>
    if name < n then (name, v) :: (n, w) :: ms
    else if name = n then (name, v) :: ms
    else (n, w) :: insertMember name v ms

/-- The members in order of their names; of several with one name, the last. -/
def orderMembers (members : List (String × Json)) : List (String × Json) :=
  members.foldl (fun ms (name, v) ↦ insertMember name v ms) []

mutual

/-- The value with the members of every object in order of their names. -/
def ordered : Json → Json
  | .array items => .array (orderedItems items)
  | .object members => .object (orderMembers (orderedMembers members))
  | v => v

/-- Each item with its members in order. -/
def orderedItems : List Json → List Json
  | [] => []
  | v :: vs => v.ordered :: orderedItems vs

/-- Each member's value with its members in order. -/
def orderedMembers : List (String × Json) → List (String × Json)
  | [] => []
  | (name, v) :: ms => (name, v.ordered) :: orderedMembers ms

end

end Json

end ItemSql
