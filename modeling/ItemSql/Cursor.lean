import ItemSql.Projection

/-!
# Cursors

A cursor hands out the rows of a result once and in order. Its columns never change. A row can be
asked for on its own, or be written into a buffer of the right width. An item whose row fails is
passed all the same: the next row is that of the next item.
-/

namespace ItemSql

/-- A place in the rows of a result. -/
structure Cursor where
  columns : List String
  /-- The items that are not yet handed out; none once the cursor is closed. -/
  items? : Option (List Item)
  policy : NumberPolicy
  deriving DecidableEq

/-- What advancing a cursor comes to. -/
inductive Advance where
  /-- The buffer holds a row. -/
  | row
  /-- No row is left. -/
  | endOfData
  | failed (e : RowError)
  deriving DecidableEq, Repr

namespace Cursor

/-- A cursor before the first row of a result. -/
def of (projection : Projection) (policy : NumberPolicy) : Cursor :=
  ⟨projection.columns, some projection.items, policy⟩

/-- The cursor of a result without columns and rows. -/
def empty : Cursor :=
  .of ⟨[], []⟩ .lenient

/-- The next row or its error, and the cursor behind it. -/
def next (cursor : Cursor) : Option (Except RowError (List Cell)) × Cursor :=
  match cursor.items? with
  | some (item :: items) =>
    (some (realizeRow cursor.columns item cursor.policy), { cursor with items? := some items })
  | _ => (none, cursor)

/-- Writes the next row into a buffer. A buffer of the wrong width is refused before anything is
taken, and the buffer changes only if there is a row. -/
def advance (cursor : Cursor) (buffer : List Cell) : Advance × List Cell × Cursor :=
  if buffer.length ≠ cursor.columns.length then
    (.failed (.bufferWidth cursor.columns.length buffer.length), buffer, cursor)
  else
    match cursor.next with
    | (none, cursor) => (.endOfData, buffer, cursor)
    | (some (.ok row), cursor) => (.row, row, cursor)
    | (some (.error e), cursor) => (.failed e, buffer, cursor)

/-- How many items are not yet handed out. -/
def left (cursor : Cursor) : Nat :=
  (cursor.items?.getD []).length

/-- A row was made of an item, which is handed out. -/
theorem left_of_advance {cursor rest : Cursor} {buffer row : List Cell}
    (h : cursor.advance buffer = (.row, row, rest)) : rest.left < cursor.left := by
  obtain ⟨columns, items?, policy⟩ := cursor
  unfold advance next at h
  split at h
  · cases h
  · cases items? with
    | none => cases h
    | some items =>
      cases items with
      | nil => cases h
      | cons item items =>
        dsimp only at h
        cases hrow : realizeRow columns item policy with
        | error e =>
          rw [hrow] at h
          cases h
        | ok cells =>
          rw [hrow] at h
          cases h
          exact Nat.lt_succ_self items.length

/-- Takes row after row into one buffer, until none is left or one fails. -/
def drain (cursor : Cursor) (buffer : List Cell) : Except RowError (List (List Cell)) :=
  match _ : cursor.advance buffer with
  | (.row, row, rest) => do
    let rows ← drain rest row
    return row :: rows
  | (.endOfData, _) => .ok []
  | (.failed e, _) => .error e
termination_by cursor.left
decreasing_by exact left_of_advance ‹_›

/-- Gives up the rows that are left. -/
def close (cursor : Cursor) : Cursor :=
  { cursor with items? := none }

/-- Whether the cursor was closed. -/
def isClosed (cursor : Cursor) : Bool :=
  cursor.items?.isNone

/-- All rows that are left, and the errors among them. -/
def rows (cursor : Cursor) : List (Except RowError (List Cell)) :=
  (cursor.items?.getD []).map fun item ↦ realizeRow cursor.columns item cursor.policy

end Cursor

end ItemSql
