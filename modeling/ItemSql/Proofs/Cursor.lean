import ItemSql.Cursor
import ItemSql.Proofs.Projection

/-!
# Runs of a cursor

A cursor can be asked for a row in two ways, and it can be closed at any time, so the answer to a
call depends on the calls before it. It depends on them through two things only: whether the cursor
was closed, and how many of the calls took an item. A call takes one if it asks for a row and does
not bring a buffer of the wrong width; that the row fails makes no difference.

The rows that are left (`Cursor.rows`) are what a call sees of a cursor. One call answers with the
first of them and leaves the others (`answered_call`, `rows_call`), and so a run goes through them
in order. To drain a cursor is such a run, with the last row for the next buffer (`drain_eq`).
-/

namespace ItemSql

namespace Cursor

/-! ## Calls and replies -/

/-- What a cursor can be asked. -/
inductive Call where
  /-- To write the next row into a buffer. -/
  | advance (buffer : List Cell)
  /-- For the next row. -/
  | next
  | close
  deriving DecidableEq, Repr

/-- What comes back of a call. -/
inductive Reply where
  /-- What advancing came to, and the buffer behind it. -/
  | advanced (outcome : Advance) (buffer : List Cell)
  | handed (row? : Option (Except RowError (List Cell)))
  | closed

/-- Calls a cursor. -/
def call (cursor : Cursor) : Call → Reply × Cursor
  | .advance buffer =>
    (.advanced (cursor.advance buffer).1 (cursor.advance buffer).2.1,
      (cursor.advance buffer).2.2)
  | .next => (.handed cursor.next.1, cursor.next.2)
  | .close => (.closed, cursor.close)

/-- Calls a cursor again and again. -/
def run (cursor : Cursor) : List Call → List Reply × Cursor
  | [] => ([], cursor)
  | c :: calls =>
    ((cursor.call c).1 :: ((cursor.call c).2.run calls).1, ((cursor.call c).2.run calls).2)

/-- Whether a call takes a row of so many columns, if one is left. -/
def Call.takes (width : Nat) : Call → Bool
  | .advance buffer => buffer.length = width
  | .next => true
  | .close => false

/-- The row that a reply delivers, or the error that stands for it. -/
def Reply.row? : Reply → Option (Except RowError (List Cell))
  | .advanced .row buffer => some (.ok buffer)
  | .advanced (.failed (.invalidNumber column text)) _ => some (.error (.invalidNumber column text))
  | .advanced _ _ => none
  | .handed row? => row?
  | .closed => none

/-- The answer to a call when this row is due. Only a row is written into a buffer, and then into
all of it. -/
inductive Answered (width : Nat) : Option (Except RowError (List Cell)) → Call → Reply → Prop
  | closed (due? : Option (Except RowError (List Cell))) : Answered width due? .close .closed
  | handed (due? : Option (Except RowError (List Cell))) : Answered width due? .next (.handed due?)
  /-- The buffer has the wrong width. -/
  | refused (due? : Option (Except RowError (List Cell))) {buffer : List Cell}
      (hbuffer : buffer.length ≠ width) :
      Answered width due? (.advance buffer)
        (.advanced (.failed (.bufferWidth width buffer.length)) buffer)
  /-- No row is due. -/
  | ended {buffer : List Cell} (hbuffer : buffer.length = width) :
      Answered width none (.advance buffer) (.advanced .endOfData buffer)
  | row {buffer row : List Cell} (hbuffer : buffer.length = width)
      (hrow : row.length = buffer.length) :
      Answered width (some (.ok row)) (.advance buffer) (.advanced .row row)
  | failed {buffer : List Cell} {column text : String} (hbuffer : buffer.length = width) :
      Answered width (some (.error (.invalidNumber column text))) (.advance buffer)
        (.advanced (.failed (.invalidNumber column text)) buffer)

variable {cursor : Cursor} {calls : List Call}

/-! ## One call -/

/-- The rows of a cursor before the next one is taken, and behind it. -/
theorem next_eq (cursor : Cursor) :
    cursor.next.1 = cursor.rows.head? ∧ cursor.next.2.rows = cursor.rows.tail ∧
      cursor.next.2.columns = cursor.columns := by
  obtain ⟨columns, _ | ⟨_ | ⟨item, items⟩⟩, policy⟩ := cursor <;> exact ⟨rfl, rfl, rfl⟩

theorem rows_close (cursor : Cursor) : cursor.close.rows = [] := rfl

theorem advance_of_ne {buffer : List Cell} (h : buffer.length ≠ cursor.columns.length) :
    cursor.advance buffer =
      (.failed (.bufferWidth cursor.columns.length buffer.length), buffer, cursor) :=
  if_pos h

/-- A row that is left was made of an item, so it has all columns or fails for a number. -/
theorem answered_advance {buffer : List Cell} (h : buffer.length = cursor.columns.length) :
    Answered cursor.columns.length cursor.rows.head? (.advance buffer)
        (.advanced (cursor.advance buffer).1 (cursor.advance buffer).2.1) ∧
      (cursor.advance buffer).2.2 = cursor.next.2 := by
  obtain ⟨columns, items?, policy⟩ := cursor
  rw [advance, if_neg (not_not_intro h)]
  match items? with
  | none => exact ⟨.ended h, rfl⟩
  | some [] => exact ⟨.ended h, rfl⟩
  | some (item :: items) =>
    rw [next, rows, Option.getD_some, List.map_cons, List.head?_cons]
    dsimp only
    match hrow : realizeRow columns item policy with
    | .ok row =>
      have hwidth := length_of_realizeRow_eq_ok hrow
      exact ⟨.row h (hwidth.trans h.symm), rfl⟩
    | .error e =>
      obtain ⟨column, text, rfl⟩ := realizeRow_error hrow
      exact ⟨.failed h, rfl⟩

/-- A call is answered with the first row that is left. -/
theorem answered_call (cursor : Cursor) (c : Call) :
    Answered cursor.columns.length cursor.rows.head? c (cursor.call c).1 := by
  match c with
  | .close => exact .closed _
  | .next =>
    rw [call, cursor.next_eq.1]
    exact .handed _
  | .advance buffer =>
    by_cases h : buffer.length = cursor.columns.length
    · exact (answered_advance h).1
    · rw [call, advance_of_ne h]
      exact .refused _ h

theorem columns_call (cursor : Cursor) (c : Call) :
    (cursor.call c).2.columns = cursor.columns := by
  match c with
  | .close => rfl
  | .next => exact cursor.next_eq.2.2
  | .advance buffer =>
    by_cases h : buffer.length = cursor.columns.length
    · rw [call, (answered_advance h).2]
      exact cursor.next_eq.2.2
    · rw [call, advance_of_ne h]

/-- A call leaves all rows but the one that it takes. -/
theorem rows_call {c : Call} (hc : c ≠ .close) :
    (cursor.call c).2.rows =
      if c.takes cursor.columns.length then cursor.rows.tail else cursor.rows := by
  match c with
  | .close => exact absurd rfl hc
  | .next => exact cursor.next_eq.2.1
  | .advance buffer =>
    by_cases h : buffer.length = cursor.columns.length
    · rw [call, (answered_advance h).2, cursor.next_eq.2.1, Call.takes, if_pos (decide_eq_true h)]
    · rw [call, advance_of_ne h, Call.takes, if_neg (mt of_decide_eq_true h)]

/-- What is delivered is the row that was due, to a call that takes it. -/
theorem Answered.row?_eq {width : Nat} {due? : Option (Except RowError (List Cell))} {c : Call}
    {reply : Reply} (h : Answered width due? c reply) :
    reply.row? = if c.takes width then due? else none := by
  cases h with
  | closed => rfl
  | handed => rfl
  | refused _ hbuffer => rw [Call.takes, if_neg (mt of_decide_eq_true hbuffer)]; rfl
  | ended hbuffer => rw [Call.takes, if_pos (decide_eq_true hbuffer)]; rfl
  | row hbuffer => rw [Call.takes, if_pos (decide_eq_true hbuffer)]; rfl
  | failed hbuffer => rw [Call.takes, if_pos (decide_eq_true hbuffer)]; rfl

/-! ## Draining -/

theorem drain_advance (cursor : Cursor) (buffer : List Cell) :
    cursor.drain buffer =
      match cursor.advance buffer with
      | (.row, row, rest) => (rest.drain row).map (row :: ·)
      | (.endOfData, _) => .ok []
      | (.failed e, _) => .error e := by
  rw [drain]
  split <;> rename_i hadvance <;> rw [hadvance]
  rename_i row rest
  dsimp only
  cases rest.drain row <;> rfl

/-- A buffer of the right width is filled with the rows that are left, up to the first error. -/
theorem drain_eq {buffer : List Cell} (h : buffer.length = cursor.columns.length) :
    cursor.drain buffer = cursor.rows.mapM id := by
  generalize hrows : cursor.rows = rows
  induction rows generalizing cursor buffer with
  | nil =>
    obtain ⟨hanswer, -⟩ := answered_advance h
    rw [hrows] at hanswer
    rw [drain_advance]
    generalize cursor.advance buffer = result at hanswer ⊢
    obtain ⟨outcome, buffer', rest⟩ := result
    dsimp only at hanswer
    cases hanswer with
    | refused _ hbuffer => exact absurd h hbuffer
    | ended => rfl
  | cons row? rows ih =>
    obtain ⟨hanswer, hrest⟩ := answered_advance h
    obtain ⟨-, hnext, hcolumns⟩ := cursor.next_eq
    rw [hrows] at hanswer hnext
    rw [drain_advance, List.mapM_cons]
    generalize cursor.advance buffer = result at hanswer hrest ⊢
    obtain ⟨outcome, buffer', rest⟩ := result
    dsimp only at hanswer
    cases hanswer with
    | refused _ hbuffer => exact absurd h hbuffer
    | failed => rfl
    | row _ hrow =>
      -- The buffer of the next call is the row, which is as wide.
      obtain rfl : rest = cursor.next.2 := hrest
      dsimp only
      rw [ih (by rw [hcolumns, hrow, h]) hnext]
      cases rows.mapM id <;> rfl

/-! ## Runs -/

theorem length_run (cursor : Cursor) (calls : List Call) :
    (cursor.run calls).1.length = calls.length := by
  induction calls generalizing cursor with
  | nil => rfl
  | cons c calls ih => rw [run, List.length_cons, List.length_cons, ih]

theorem run_append (cursor : Cursor) (before after : List Call) :
    cursor.run (before ++ after) =
      ((cursor.run before).1 ++ ((cursor.run before).2.run after).1,
        ((cursor.run before).2.run after).2) := by
  induction before generalizing cursor with
  | nil => rfl
  | cons c before ih => rw [List.cons_append, run, run, ih, List.cons_append]

theorem columns_run (cursor : Cursor) (calls : List Call) :
    (cursor.run calls).2.columns = cursor.columns := by
  induction calls generalizing cursor with
  | nil => rfl
  | cons c calls ih => rw [run, ih, columns_call]

/-- Nothing is left behind a call to close. -/
theorem rows_run_of_rows_eq_nil (h : cursor.rows = []) : (cursor.run calls).2.rows = [] := by
  induction calls generalizing cursor with
  | nil => exact h
  | cons c calls ih =>
    rw [run]
    apply ih
    by_cases hc : c = .close
    · rw [hc]
      exact rows_close cursor
    · rw [rows_call hc, h]
      exact ite_self []

/-- The rows behind a run: those that no call took, and none once the cursor was closed. -/
theorem rows_run (cursor : Cursor) (calls : List Call) :
    (cursor.run calls).2.rows =
      if .close ∈ calls then []
      else cursor.rows.drop (calls.countP (Call.takes cursor.columns.length)) := by
  induction calls generalizing cursor with
  | nil => rfl
  | cons c calls ih =>
    rw [run]
    by_cases hc : c = .close
    · rw [hc, if_pos List.mem_cons_self]
      exact rows_run_of_rows_eq_nil (rows_close cursor)
    · rw [ih, columns_call, rows_call hc, List.countP_cons]
      simp only [List.mem_cons, Ne.symm hc, false_or]
      split
      · rfl
      · split
        · rw [← List.drop_one, List.drop_drop, Nat.add_comm]
        · rfl

/-- How many rows the calls take from a cursor before it is closed, if so many are left. -/
def taken (width : Nat) (calls : List Call) : Nat :=
  (calls.takeWhile (· ≠ .close)).countP (Call.takes width)

/-- The rows and the errors that replies deliver. -/
def delivered (replies : List Reply) : List (Except RowError (List Cell)) :=
  replies.filterMap Reply.row?

theorem delivered_cons (reply : Reply) (replies : List Reply) :
    delivered (reply :: replies) = reply.row?.toList ++ delivered replies := by
  rw [delivered, delivered, List.filterMap_cons]
  cases reply.row? <;> rfl

theorem taken_cons {c : Call} (hc : c ≠ .close) (width : Nat) :
    taken width (c :: calls) = taken width calls + if c.takes width then 1 else 0 := by
  have hopen : decide (c ≠ .close) = true := decide_eq_true hc
  rw [taken, List.takeWhile_cons, hopen, if_pos rfl, List.countP_cons, taken]

/-- A run delivers the rows in order, from the first one on, each once. -/
theorem delivered_run (cursor : Cursor) (calls : List Call) :
    delivered (cursor.run calls).1 = cursor.rows.take (taken cursor.columns.length calls) := by
  induction calls generalizing cursor with
  | nil => rfl
  | cons c calls ih =>
    rw [run, delivered_cons, (answered_call cursor c).row?_eq, ih, columns_call]
    by_cases hc : c = .close
    · rw [hc]
      exact List.take_nil
    · rw [taken_cons hc, rows_call hc]
      by_cases htakes : c.takes cursor.columns.length = true
      · rw [if_pos htakes, if_pos htakes, if_pos htakes]
        cases cursor.rows with
        | nil => exact List.take_nil
        | cons row rows => rfl
      · rw [if_neg htakes, if_neg htakes, if_neg htakes]
        rfl

/-! ## The cursor of a result -/

/-- The row that is due behind calls to the cursor of a result: that of the next item which none of
them took. None is due once all items are taken, or the cursor is closed. -/
def due? (p : Projection) (policy : NumberPolicy) (calls : List Call) :
    Option (Except RowError (List Cell)) :=
  if .close ∈ calls then none
  else p.items[calls.countP (Call.takes p.columns.length)]?.map fun item ↦
    realizeRow p.columns item policy

theorem rows_of (p : Projection) (policy : NumberPolicy) :
    (of p policy).rows = p.items.map fun item ↦ realizeRow p.columns item policy := rfl

theorem head?_rows_run_of (p : Projection) (policy : NumberPolicy) (calls : List Call) :
    ((of p policy).run calls).2.rows.head? = due? p policy calls := by
  rw [rows_run, due?, rows_of]
  split
  · rfl
  · rw [List.head?_drop, List.getElem?_map]
    rfl

theorem due?_eq_none_of_prefix {p : Projection} {policy : NumberPolicy} {before : List Call}
    (hbefore : before <+: calls) (h : due? p policy before = none) :
    due? p policy calls = none := by
  obtain ⟨after, rfl⟩ := hbefore
  rw [due?] at h ⊢
  split at h
  · rename_i hclose
    rw [if_pos (List.mem_append_left _ hclose)]
  · split
    · rfl
    · rw [Option.map_eq_none_iff, List.getElem?_eq_none_iff] at h ⊢
      rw [List.countP_append]
      exact Nat.le_add_right_of_le h

/-- A run of calls to the cursor of a result as it should be. -/
structure Conducted (p : Projection) (policy : NumberPolicy) (calls : List Call)
    (replies : List Reply) (last : Cursor) : Prop where
  columns : last.columns = p.columns
  length : replies.length = calls.length
  /-- Each call is answered with the row that is due behind the calls before it. -/
  answered : ∀ ⦃before c after⦄, calls = before ++ c :: after →
    ∃ reply, replies[before.length]? = some reply ∧
      Answered p.columns.length (due? p policy before) c reply
  /-- Once no row is due, none is due any more. -/
  ended : ∀ ⦃before through⦄, before <+: through → through <+: calls →
    due? p policy before = none → due? p policy through = none
  /-- The rows of the first items are delivered, in order and each once. -/
  delivered : delivered replies =
    (p.items.take (taken p.columns.length calls)).map fun item ↦ realizeRow p.columns item policy

/-- However calls to the cursor of a result are mixed, it goes through the items once and in order,
and it writes into a buffer only when it has a whole row. -/
theorem conducted_run (p : Projection) (policy : NumberPolicy) (calls : List Call) :
    Conducted p policy calls ((of p policy).run calls).1 ((of p policy).run calls).2 where
  columns := columns_run _ _
  length := length_run _ _
  answered := by
    rintro before c after rfl
    have hanswered := answered_call ((of p policy).run before).2 c
    rw [columns_run, head?_rows_run_of] at hanswered
    refine ⟨_, ?_, hanswered⟩
    rw [run_append, ← length_run (of p policy) before, List.getElem?_append_right (Nat.le_refl _),
      Nat.sub_self]
    rfl
  ended := fun _ _ hbefore _ h ↦ due?_eq_none_of_prefix hbefore h
  delivered := by
    rw [delivered_run, rows_of, List.map_take]
    rfl

end Cursor

end ItemSql
