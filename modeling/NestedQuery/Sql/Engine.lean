import NestedQuery.Accumulator.Basic
import NestedQuery.Leaf
import NestedQuery.Sql.Dialect
import NestedQuery.Sql.Fragment

/-!
# Database engines

An `Engine` collects what differs between the databases that statements are written for: the
dialect, how rows are numbered, how rows are skipped without a limit, and the type that sums are
cast to. The functions below write the parts of a statement that depend on it.

Rows can be numbered by a correlated count, which reads the table a second time under a temporary
name. Temporary names come from a counter (`TempIds`), so that no two of them are equal.
-/

namespace NestedQuery

/-- How the rows of a table are numbered. -/
inductive RowIds where
  /-- By a window over all rows. -/
  | window
  /-- By a column that the engine keeps. -/
  | native (column : String)
  /-- By counting the rows with a smaller or equal key. -/
  | emulated (key : String)
  deriving Repr, DecidableEq

/-- Computations that draw temporary names: the state is how many have been drawn. -/
abbrev TempIds := StateM Nat

/-- Draws the next number. -/
def nextTempId : TempIds Nat :=
  modifyGet fun n => (n + 1, n + 1)

/-- Draws the next temporary name. -/
def nextTempName : TempIds String := do
  return s!"rs_tmp_{← nextTempId}"

/-- The name under which the row numbers of a table are selected. -/
def rowIdName (name : String) : String :=
  name ++ "." ++ rowIdColumn

/-- How a binary operator is written in SQL. -/
def BinaryOp.chunk : BinaryOp → Chunk
  | .add => .raw "+"
  | .sub => .raw "-"
  | .mul => .raw "*"
  | .div => .raw "/"
  | .mod => .raw "%"
  | .eq => .raw "="
  | .ne => .raw "<>"
  | .lt => .raw "<"
  | .le => .raw "<="
  | .gt => .raw ">"
  | .ge => .raw ">="
  | .and => .raw "AND"
  | .or => .raw "OR"
  | .isIn => .token .in_
  | .comma => .token .comma

/-- What differs between databases. -/
structure Engine where
  /-- The dialect. -/
  dialect : Dialect
  /-- How rows are numbered. -/
  rowIds : RowIds
  /-- What is written before the number of rows to skip if there is no limit. -/
  skipAlone : String
  /-- The type that sums and means are cast to. -/
  totalType? : Option String

namespace Engine

/-- An engine that follows the common standard. -/
def ansi (rowIds : RowIds := .window) : Engine :=
  ⟨.sqlite, rowIds, "OFFSET", none⟩

/-- An engine that has no bare offset: a negative limit stands for none. -/
def sqlite (rowIds : RowIds := .window) : Engine :=
  ⟨.sqlite, rowIds, "LIMIT -1 OFFSET", none⟩

/-- An engine whose sums of integers have a type that rows cannot carry. -/
def postgres : Engine :=
  ⟨.postgresql, .window, "OFFSET", some "DOUBLE PRECISION"⟩

/-! ### Tables -/

/-- The row numbers of a table. -/
def rowNumbers (e : Engine) (table : String) : TempIds Fragment := do
  match e.rowIds with
  | .window =>
    return Fragment.call "ROW_NUMBER" [] ++ [.token .over_, .token .openParen, .token .closeParen]
  | .native column => return Fragment.ident column
  | .emulated key =>
    let temp ← nextTempName
    return Fragment.parens
      ([.token .select] ++ Fragment.call "COUNT" [.token .star] ++ [.token .from_]
        ++ Fragment.named (Fragment.ident table) temp ++ [.token .where_]
        ++ Fragment.qualified temp key ++ [.raw "<="] ++ Fragment.qualified table key)

/-- A table with a column of row numbers in front, under the name it has in the statement. -/
def tableSource (e : Engine) (table name : String) : TempIds Fragment := do
  let numbers ← e.rowNumbers table
  return Fragment.named
    (Fragment.parens
      ([.token .select] ++ numbers.named rowIdColumn
        ++ [.token .comma, .token .star, .token .from_, .ident table]))
    name

/-! ### Aggregates, functions and operators -/

/-- An aggregate of an operand, or of its distinct values. -/
def aggregate (e : Engine) (function : Aggregate) (operand : Fragment) (distinct : Bool) :
    Fragment :=
  let operand := if distinct then .token .distinct :: operand else operand
  let call := Fragment.call function.sqlName operand
  match e.totalType?, function with
  | some type, .sum | some type, .avg =>
    Fragment.call "CAST" (call ++ [.token .as_, .raw type])
  | _, _ => call

/-- An operator over one operand, which has its parentheses already. -/
def wrap (e : Engine) (op : Wrapper) (operand : Fragment) : Fragment :=
  match op with
  | .not => .token .not :: operand
  | .negate => .token .minus :: operand
  | .aggregate function => e.aggregate function operand false
  | .apply function => Fragment.call function.sqlName operand

/-! ### Paging -/

/-- The clause that skips and limits rows, if there is anything to say. -/
def paging (e : Engine) : (skip? take? : Option Nat) → Option Fragment
  | none, none => none
  | none, some take => some [.raw "LIMIT", .number take]
  | some skip, none => some [.raw e.skipAlone, .number skip]
  | some skip, some take => some [.raw "LIMIT", .number take, .raw "OFFSET", .number skip]

end Engine

end NestedQuery
