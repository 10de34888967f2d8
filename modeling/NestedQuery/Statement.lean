import NestedQuery.Leaf
import NestedQuery.Schema

/-!
# Statements

A `Statement` is what a mapping is compiled against: the tables of the query's shape, how they
are joined, and the clauses outside the projection. Each table is reached through a member of the
shape; if the primary table has an empty member name, the shape is its row. `Statement.lookup?`
says what a path of member names stands for.
-/

namespace NestedQuery

/-- How a joined table treats rows without a partner. -/
inductive JoinKind where
  /-- They are dropped. -/
  | inner
  /-- They are kept, with nulls. -/
  | left
  deriving Repr, DecidableEq

/-- The direction of an ordering. -/
inductive Direction where
  /-- Least first. -/
  | asc
  /-- Greatest first. -/
  | desc
  deriving Repr, DecidableEq

/-- A table of the shape. -/
structure Source where
  /-- The member of the shape that stands for the table. -/
  path : String
  /-- The table. -/
  table : Table

/-- A table that is joined to those before it. -/
structure Join extends Source where
  /-- How many of its rows belong to one row of the shape. -/
  cardinality : Cardinality
  /-- What happens to rows without a partner. -/
  kind : JoinKind
  /-- The condition, once it is known. -/
  on? : Option Term

/-- The tables and clauses of a query. -/
structure Statement where
  /-- The table whose rows are the elements of the result. -/
  primary : Source
  /-- The joined tables, in order. -/
  joins : List Join := []
  /-- The condition on the joined rows. -/
  filter? : Option Term := none
  /-- The ordering, most significant key first. -/
  order : List (Term × Direction) := []
  /-- How many rows are left out. -/
  skip? : Option Nat := none
  /-- How many rows are taken at most. -/
  take? : Option Nat := none

/-- The name of a table inside the statement. -/
def tableAlias (id : TableId) : String :=
  s!"t{id}"

/-- The row number of a table of the statement. -/
def rowIdRef (id : TableId) : ColumnRef :=
  ⟨id, tableAlias id, rowIdColumn⟩

/-- What a path of member names stands for. -/
inductive Lookup where
  /-- The whole shape, if it has several tables. -/
  | shape
  /-- A table. -/
  | table (id : TableId) (table : Table)
  /-- A field of a table. -/
  | column (id : TableId) (table : Table) (field : Field)
  /-- The row number of a table. -/
  | rowId (id : TableId) (table : Table)

namespace Statement

/-- The tables in order, the primary table first. -/
def sources (s : Statement) : List Source :=
  s.primary :: s.joins.map Join.toSource

/-- The places of the tables. -/
def tableIds (s : Statement) : List TableId :=
  List.range s.sources.length

/-- The join that introduces a table, if it is not the primary table. -/
def join? (s : Statement) : TableId → Option Join
  | 0 => none
  | id + 1 => s.joins[id]?

/-- The table at a place. -/
def source (s : Statement) (id : TableId) : Source :=
  s.sources[id]?.getD s.primary

/-- The member of the shape that stands for a table. -/
def path (s : Statement) (id : TableId) : String :=
  (s.source id).path

/-- The name in the database of a table. -/
def tableName (s : Statement) (id : TableId) : String :=
  (s.source id).table.name

/-- How many rows of a table belong to one row of the shape. -/
def cardinality (s : Statement) (id : TableId) : Cardinality :=
  ((s.join? id).map Join.cardinality).getD .one

/-- Whether the shape is the primary table's row. -/
def isRowShape (s : Statement) : Bool :=
  s.primary.path.isEmpty

/-- The members of the shape, in order; none if the shape is the primary table's row. -/
def members (s : Statement) : List String :=
  if s.isRowShape then [] else s.sources.map Source.path

/-- The first table whose member of the shape has the name, which is not empty. -/
def memberTable? (s : Statement) (name : String) : Option TableId :=
  if name.isEmpty then none else s.sources.findIdx? fun t => t.path == name

/-- What a path stands for inside a table. -/
def lookupIn (id : TableId) (table : Table) : List String → Option Lookup
  | [] => some (.table id table)
  | [name] =>
    if name = rowIdColumn then some (.rowId id table)
    else (table.find? name).map (.column id table)
  | _ => none

/-- What a path that starts at the shape stands for. A member of the shape comes before a field
of the primary table with the same name. -/
def lookup? (s : Statement) : List String → Option Lookup
  | [] => if s.isRowShape then some (.table 0 s.primary.table) else some .shape
  | name :: rest =>
    match s.memberTable? name with
    | some id => lookupIn id (s.source id).table rest
    | none => if s.isRowShape then lookupIn 0 s.primary.table (name :: rest) else none

end Statement

end NestedQuery
