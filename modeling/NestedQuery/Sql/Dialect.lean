/-!
# Dialects

How a dialect writes the placeholders of parameters.
-/

namespace NestedQuery

/-- A dialect of SQL. -/
inductive Dialect where
  /-- Placeholders are question marks. -/
  | sqlite
  /-- Placeholders carry the number of their parameter. -/
  | postgresql
  deriving Repr, DecidableEq, Inhabited

namespace Dialect

/-- The dialect's name. -/
def name : Dialect → String
  | sqlite => "sqlite"
  | postgresql => "postgresql"

/-- The placeholder of a parameter; the first one has the number one. -/
def placeholder : Dialect → Nat → String
  | sqlite, _ => "?"
  | postgresql, number => s!"${number}"

end Dialect

end NestedQuery
