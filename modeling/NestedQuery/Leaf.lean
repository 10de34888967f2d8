import NestedQuery.Accumulator.Basic
import NestedQuery.Params
import NestedQuery.Value.Basic

/-!
# Leaves

The leaves of the accumulators of a mapping. Compiling a mapping gives `Symbol`s: paths of member
names that start at the row of the shape or at the parameter of a `select`. Resolving turns each
into a `Cell`: a column of a table of the statement.
-/

namespace NestedQuery

/-- The place of a table in its statement; the primary table has place 0. -/
abbrev TableId := Nat

/-- The place of a binding in the list of bindings. -/
abbrev BindingId := Nat

/-- The column of row numbers that the statement gives to every table. -/
def rowIdColumn : String := "##rowid"

/-- Where a path starts. -/
inductive Root where
  /-- The row of the shape. -/
  | row
  /-- The parameter of a `select`. -/
  | binding (id : BindingId)
  deriving Repr, DecidableEq

/-- What the parameter of a `select` stands for. -/
structure Binding where
  /-- Where its path starts. -/
  root : Root
  /-- The member names from there on. -/
  path : List String
  deriving Repr, DecidableEq

/-- A leaf before resolution. -/
inductive Symbol where
  /-- A parameter of the statement. -/
  | param (id : ParamId)
  /-- A path of member names. `into` is the table whose rows the value is folded into, if it lies
  beneath an aggregate. -/
  | column (root : Root) (path : List String) (into : Option TableId)
      (function : Option Function)
  deriving Repr, DecidableEq

instance : Inhabited Symbol := ⟨.param 0⟩

/-- Whether the leaf is a parameter. -/
def Symbol.isParam : Symbol → Bool
  | param _ => true
  | column .. => false

/-- A column of a table of the statement. -/
structure ColumnRef where
  /-- The table. -/
  table : TableId
  /-- The name of the table in the statement. -/
  tableAlias : String
  /-- The column's name. -/
  column : String
  deriving Repr, DecidableEq

/-- Whether the column holds row numbers. -/
def ColumnRef.isRowId (c : ColumnRef) : Bool :=
  c.column == rowIdColumn

/-- A leaf after resolution. -/
inductive Cell where
  /-- A parameter of the statement. -/
  | param (id : ParamId)
  /-- A column. `rowId` is the row number of the table whose rows the value belongs to. -/
  | column (column rowId : ColumnRef) (function : Option Function) (type : ValueType)
  deriving Repr, DecidableEq

instance : Inhabited Cell := ⟨.param 0⟩

namespace Cell

/-- Whether the leaf is a parameter. -/
def isParam : Cell → Bool
  | param _ => true
  | column .. => false

/-- The column that the leaf reads. -/
def column? : Cell → Option ColumnRef
  | param _ => none
  | column c .. => some c

/-- The row number of the table whose rows the value belongs to. -/
def rowId? : Cell → Option ColumnRef
  | param _ => none
  | column _ r .. => some r

/-- Whether the value is folded into the rows of another table than its own. -/
def isFolded : Cell → Bool
  | param _ => false
  | column c r .. => c.table != r.table

/-- The tables that a leaf needs: the one it reads, and the one whose rows it belongs to. -/
def tables : Cell → List TableId
  | .param _ => []
  | .column c r .. => [c.table, r.table]

end Cell

/-- A resolved accumulator. -/
abbrev Term := Accumulator Cell

/-- The columns that a resolved accumulator reads, left to right. -/
def Term.columns (t : Term) : List ColumnRef :=
  t.leaves.filterMap Cell.column?

/-- The tables that a term needs. -/
def Term.neededTables (t : Term) : List TableId :=
  t.leaves.flatMap Cell.tables

end NestedQuery
