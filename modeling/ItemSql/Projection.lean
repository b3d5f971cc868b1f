import ItemSql.AttributeValue
import ItemSql.Decimal.Integer
import ItemSql.Text.Blank
import ItemSql.Text.Glyph

/-!
# Items as rows

The items of an answer have shapes of their own; rows have one width. The columns are those that a
query lists, in its order, or else every attribute of any item, in the order in which they are first
seen. A row has a cell for each column, empty where the item has no such attribute.

A number is a cell only if it is an integer. What becomes of any other number is a matter of policy:
zero, or the failure of the row.
-/

namespace ItemSql

/-- A field of a row. -/
inductive Cell where
  | bytes (content : Text.Bytes)
  | int (n : Int64)
  | null
  deriving DecidableEq, Repr, Inhabited

namespace Cell

/-- Whether the cell is empty. -/
def isNull (c : Cell) : Bool :=
  c = .null

/-- The text of a cell. -/
def display : Cell → String
  | .bytes content => Text.lossy content
  | .int n => Decimal.ofInt n.toInt
  | .null => "NULL"

end Cell

/-- What becomes of a number that is no integer. -/
inductive NumberPolicy where
  /-- It is read as zero. -/
  | lenient
  /-- The row fails. -/
  | strict
  deriving DecidableEq, Repr, Inhabited

/-- Why a row is not delivered. -/
inductive RowError where
  /-- A buffer has not one slot for each column. -/
  | bufferWidth (expected actual : Nat)
  /-- A number is no integer. -/
  | invalidNumber (column text : String)
  deriving DecidableEq, Repr

/-- The error in words. -/
def RowError.message : RowError → String
  | .bufferWidth expected actual =>
    "row buffer holds " ++ Decimal.ofNat actual ++ " slots but there are " ++
      Decimal.ofNat expected ++ " columns"
  | .invalidNumber column text =>
    "column '" ++ column ++ "' holds non-integer number '" ++ text ++ "'"

/-- The cell of a number. White space around the number does not matter, and nothing but white space
is an empty cell. -/
def realizeNumber (text column : String) (policy : NumberPolicy) : Except RowError Cell :=
  let digits := Text.trim text
  if digits = "" then .ok .null
  else
    match Decimal.int64? digits, policy with
    | some n, _ => .ok (.int n)
    | none, .lenient => .ok (.int 0)
    | none, .strict => .error (.invalidNumber column text)

/-- The cell of an attribute, if the item has it. An empty string is an empty cell. -/
def realize (value? : Option AttributeValue) (column : String) (policy : NumberPolicy) :
    Except RowError Cell :=
  match value? with
  | none => .ok .null
  | some .null => .ok .null
  | some (.string content) =>
    if content = "" then .ok .null else .ok (.bytes (Text.utf8 content))
  | some (.number text) => realizeNumber text column policy

/-- The row of an item, or the error of its first cell that has one. -/
def realizeRow (columns : List String) (item : Item) (policy : NumberPolicy) :
    Except RowError (List Cell) :=
  columns.mapM fun column ↦ realize (item.get? column) column policy

/-- The names of the list, each at its first place only. -/
def distinct (names : List String) : List String :=
  names.foldl (fun seen name ↦ if name ∈ seen then seen else seen ++ [name]) []

/-- The columns of a result. -/
def resolveColumns (items : List Item) (explicit? : Option (List String)) : List String :=
  match explicit? with
  | some columns => columns
  | none => distinct (items.flatMap NameMap.names)

/-- Items with the columns of their rows. -/
structure Projection where
  columns : List String
  items : List Item
  deriving DecidableEq

/-- The items with the columns that are listed, or with all of theirs. -/
def Projection.of (items : List Item) (explicit? : Option (List String)) : Projection :=
  ⟨resolveColumns items explicit?, items⟩

end ItemSql
