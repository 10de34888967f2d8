import NestedQuery.Leaf
import NestedQuery.Sql.Engine

/-!
# Terms as SQL

`TermWriter.term` writes a resolved accumulator. An operand that is itself an operator gets
parentheses, so the reading of the text never hangs on the strength of operators.

A writer reads columns from the joined tables, or, if it has markers, from a derived table that
holds the joined rows with row numbers inside groups. There an aggregate that repeated rows would
change takes only the first row of each combination of the tables it reads, the row that its
`Marker` numbers one.
-/

namespace NestedQuery

/-- A column of row numbers inside each group, one for every row of a distinct combination of
tables. -/
structure Marker where
  /-- The column's name. -/
  name : String
  /-- The tables, in order. -/
  tables : List TableId
  deriving Repr, DecidableEq

/-- The name of the derived table. -/
def derivedTable : String := "##rows"

/-- The name in the derived table of a column. -/
def derivedName (c : ColumnRef) : String :=
  c.tableAlias ++ "." ++ c.column

/-- Inserts a table into a list in order, unless it is there. -/
def insertTable (t : TableId) : List TableId → List TableId
  | [] => [t]
  | u :: us => if t < u then t :: u :: us else if t = u then u :: us else u :: insertTable t us

/-- The tables that a term reads columns of, in the order of the statement. -/
def Term.readTables (t : Term) : List TableId :=
  (Term.columns t).foldr (fun c ts => insertTable c.table ts) []

/-- Whether a term is a row number. -/
def Term.isRowId : Term → Bool
  | .leaf (.column c ..) => c.isRowId
  | _ => false

/-- Whether a term needs parentheses as an operand. -/
def Term.isComposite : Term → Bool
  | .binary .. | .wrap .not _ | .wrap .negate _ => true
  | _ => false

/-- What writing a term needs to know. -/
structure TermWriter where
  /-- The engine. -/
  engine : Engine
  /-- The parameters. -/
  pool : Pool
  /-- The markers of the derived table, if columns are read from it. -/
  markers? : Option (List Marker) := none

namespace TermWriter

/-- A column as the writer reads it. -/
def column (w : TermWriter) (c : ColumnRef) : Fragment :=
  match w.markers? with
  | none => .qualified c.tableAlias c.column
  | some _ => .qualified derivedTable (derivedName c)

/-- The marker of the tables that a term reads. -/
def marker? (w : TermWriter) (t : Term) : Option Marker :=
  (w.markers?.getD []).find? fun m => m.tables == Term.readTables t

/-- The value of the first row of each combination only. -/
def marked (m : Marker) (value : Fragment) : Fragment :=
  [.token .case, .token .when] ++ Fragment.qualified derivedTable m.name
    ++ [.raw "=", .number 1, .token .then_] ++ value ++ [.token .end_]

/-- An aggregate of a written operand. Row numbers are counted without repetition. -/
def aggregate (w : TermWriter) (function : Aggregate) (operand : Term) (value : Fragment) :
    Fragment :=
  if function = .count ∧ Term.isRowId operand then w.engine.aggregate .count value true
  else if w.markers?.isSome ∧ function.countsDuplicates then
    match w.marker? operand with
    | some m => w.engine.aggregate function (marked m value) false
    | none => w.engine.aggregate function value false
  else w.engine.aggregate function value false

/-- A written term as an operand. -/
def asOperand (t : Term) (written : Fragment) : Fragment :=
  if Term.isComposite t then written.parens else written

/-- The leaf as the writer reads it. -/
def leaf (w : TermWriter) : Cell → Fragment
  | .param id => .param id
  | .column c _ none _ => w.column c
  | .column c _ (some function) _ => .call function.sqlName (w.column c)

/-- The test whether a written subject is in a list. -/
def membership (w : TermWriter) (subject : Fragment) (list : Term) (written : Fragment) :
    Fragment :=
  match list with
  | .leaf (.param id) =>
    if w.pool.isExpanded id then [.inList subject id]
    else subject ++ [.token .in_] ++ written.parens
  | _ => subject ++ [.token .in_] ++ written.parens

mutual

/-- A term as SQL. -/
def term (w : TermWriter) : Term → Fragment
  | .leaf a => w.leaf a
  | .binary .isIn left right =>
    w.membership (asOperand left (w.term left)) right (w.term right)
  | .binary .comma left right => w.term left ++ [.token .comma] ++ w.term right
  | .binary op left right =>
    asOperand left (w.term left) ++ [op.chunk] ++ asOperand right (w.term right)
  | .wrap .not operand => w.engine.wrap .not (asOperand operand (w.term operand))
  | .wrap .negate operand => w.engine.wrap .negate (asOperand operand (w.term operand))
  | .wrap (.aggregate function) operand => w.aggregate function operand (w.term operand)
  | .wrap (.apply function) operand => w.engine.wrap (.apply function) (w.term operand)
  | .cases branches otherwise =>
    [.token .case] ++ w.branches branches ++ [.token .else_] ++ w.term otherwise
      ++ [.token .end_]
  | .casesOf subject branches otherwise =>
    [.token .case] ++ asOperand subject (w.term subject) ++ w.branches branches
      ++ [.token .else_] ++ w.term otherwise ++ [.token .end_]

/-- The branches of a case as SQL. -/
def branches (w : TermWriter) : List (Term × Term) → Fragment
  | [] => []
  | (test, value) :: rest =>
    [.token .when] ++ w.term test ++ [.token .then_] ++ w.term value ++ w.branches rest

end

end TermWriter

end NestedQuery
