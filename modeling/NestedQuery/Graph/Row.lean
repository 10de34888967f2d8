import NestedQuery.Error

/-!
# Result rows

A `Row` is one row of a result: the names of its columns and its cells. A `Cursor` holds the rows
that are still to come and the failure at their end, if there is one; `Cursor.next` takes one row
at a time, `Cursor.stream` lists all that is to come.
-/

namespace NestedQuery

/-- One row of a result. -/
structure Row where
  /-- The names of the columns. -/
  columns : List String
  /-- The cells, in the order of the columns. -/
  cells : List Value
  deriving Inhabited

namespace Row

/-- The cell at a position. -/
def get? (r : Row) (i : Nat) : Option Value :=
  r.cells[i]?

/-- The cell of the first column with a name. -/
def find? (r : Row) (name : String) : Option Value :=
  (r.columns.idxOf? name).bind r.get?

end Row

/-- Rows that are read one after another. -/
structure Cursor where
  /-- The rows to come. -/
  rows : List Row
  /-- What happens after the last row, if the rows do not just end. -/
  failure? : Option Error := none

namespace Cursor

/-- The next row, if there is one, and the rest. -/
def next (c : Cursor) : Result (Option (Row × Cursor)) :=
  match c.rows, c.failure? with
  | r :: rest, failure? => .ok (some (r, ⟨rest, failure?⟩))
  | [], some e => .error e
  | [], none => .ok none

theorem rows_length_lt_of_next {c rest : Cursor} {r : Row} (h : c.next = .ok (some (r, rest))) :
    rest.rows.length < c.rows.length := by
  obtain ⟨rows, failure?⟩ := c
  cases rows with
  | nil => cases failure? <;> simp [next] at h
  | cons row rows =>
    simp only [next, Except.ok.injEq, Option.some.injEq, Prod.mk.injEq] at h
    simp [← h.2]

/-- Everything that the cursor yields, in order. -/
def stream (c : Cursor) : List (Result Row) :=
  c.rows.map .ok ++ (c.failure?.map .error).toList

end Cursor

end NestedQuery
