import NestedQuery.Error
import NestedQuery.Statement

/-!
# Resolution

`qualify` follows the bindings of `select` parameters until a path starts at the shape; then the
statement says which column it names. `Resolver.resolve` does both for one leaf, and
`Resolver.resolveTree` for all leaves of an accumulator.
-/

namespace NestedQuery

/-- The path from the shape of a path that starts at `root`. A chain of bindings without a circle
has at most as many steps as there are bindings, so `steps` is one more than their number. -/
def qualifyWithin (bindings : List Binding) :
    (steps : Nat) → (root : Root) → (path : List String) → Result (List String)
  | 0, _, _ => .error (.invariant .bindingCycle)
  | _ + 1, .row, path => .ok path
  | steps + 1, .binding id, path =>
    match bindings[id]? with
    | some b => qualifyWithin bindings steps b.root (b.path ++ path)
    | none => .error (.invariant (.unknownBinding id))

/-- The path from the shape of a path that starts at `root`. -/
def qualify (bindings : List Binding) (root : Root) (path : List String) :
    Result (List String) :=
  qualifyWithin bindings (bindings.length + 1) root path

/-- What resolution needs to know. -/
structure Resolver where
  /-- The tables. -/
  statement : Statement
  /-- How fields are stored. -/
  naming : Naming
  /-- What the parameters of `select`s stand for. -/
  bindings : List Binding

namespace Resolver

/-- The column that a path from the shape names, with its type. -/
def columnAt (r : Resolver) (path : List String) : Result (ColumnRef × ValueType) :=
  let subject := String.intercalate "." path
  match r.statement.lookup? path with
  | some (.column id _ field) => .ok (⟨id, tableAlias id, field.column r.naming⟩, field.type)
  | some (.rowId id _) => .ok (rowIdRef id, .integer)
  | some (.table _ table) => .error (.unsupported subject (.tableNotColumn table.name))
  | some .shape => .error (.unsupported "q" .shapeAsValue)
  | none => .error (.unsupported subject .unknownPath)

/-- The column of a leaf. Its value belongs to the rows of the table that it is folded into, or
else of its own table. -/
def resolve (r : Resolver) : Symbol → Result Cell
  | .param id => .ok (.param id)
  | .column root path into function => do
    let (column, type) ← r.columnAt (← qualify r.bindings root path)
    return .column column (rowIdRef (into.getD column.table)) function type

/-- The accumulator with every leaf resolved, or the first failure. -/
def resolveTree (r : Resolver) (acc : Accumulator Symbol) : Result Term :=
  acc.traverse r.resolve

end Resolver

end NestedQuery
