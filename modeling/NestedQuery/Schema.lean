import NestedQuery.Text.SnakeCase
import NestedQuery.Value.Basic

/-!
# Tables

A `Table` is the row type of a database table: its name and its fields in order. The mapping
names a field; the statement names its column, which is given with the field or follows from the
field's name by a `Naming` rule.
-/

namespace NestedQuery

/-- How the column of a field is found when it is not given. -/
inductive Naming where
  /-- `FirstName` is stored in `first_name`. -/
  | snakeCase
  /-- A field is stored under its own name. -/
  | verbatim
  deriving Repr, DecidableEq

/-- The column name of a field name. -/
def Naming.column : Naming → String → String
  | snakeCase, field => Text.snakeCase field
  | verbatim, field => field

/-- A scalar field of a table. -/
structure Field where
  /-- The name that mappings use. -/
  name : String
  /-- The column's name, if it does not follow from the field's. -/
  column? : Option String
  /-- The declared type of its cells. -/
  type : ValueType
  deriving Repr, DecidableEq

/-- The column that stores a field. -/
def Field.column (f : Field) (naming : Naming) : String :=
  f.column?.getD (naming.column f.name)

/-- A table's row type. -/
structure Table where
  /-- The table's name in the database. -/
  name : String
  /-- Its fields, in order. -/
  fields : List Field
  deriving Repr, DecidableEq

/-- The first field with a name. -/
def Table.find? (t : Table) (name : String) : Option Field :=
  t.fields.find? fun f => f.name == name

/-- How many rows of a joined table belong to one row of the query. -/
inductive Cardinality where
  /-- At most one: an object or null. -/
  | one
  /-- Any number: a collection. -/
  | many
  deriving Repr, DecidableEq

end NestedQuery
