import NestedQuery.Mapping.Chain

/-!
# Collections

What a mapping does with the rows of a table: it folds them into one value (`compileAggregate`),
it ranges over them (`compileRange` and `Range.result`, around the body of a `select`), or it
takes the only one (`compileOne`). Each adds the table to the mapped tables of the result.
-/

namespace NestedQuery

open Compile

/-! ### Aggregates -/

/-- The leaf folded into the rows of a table, unless it is folded already. -/
def Symbol.foldedInto (table : TableId) : Symbol → Symbol
  | .column root path none function => .column root path (some table) function
  | leaf => leaf

/-- The type of an aggregate over values of a type. -/
def Aggregate.type : Aggregate → ValueType → ValueType
  | .count, _ => .integer
  | .avg, _ => .real
  | _, t => t

/-- The aggregate `e` of a compiled source. Counting a whole table counts its row numbers. -/
def compileAggregate (s : Statement) (scope : Scope) (e : Expr) (function : Aggregate)
    (c : Compiled) : Compile Compiled := do
  let whole ← whole? s c
  let some o := c.value? | refuse e .aggregateSource
  let (value, tables) ←
    match whole with
    | some (.table id table, root, path) =>
      if function = .count then
        pure (chainLeaf root (path ++ [rowIdColumn]), c.tables ++ [⟨id, [], true, false⟩])
      else refuse e (.aggregateOfTable function table.name)
    | some (.shape, _) => refuse e .aggregateOfShape
    | none => pure (o.value, c.tables)
  let folded := value.map (Symbol.foldedInto scope.table)
  return .ofValue (.wrap (.aggregate function) folded) (function.type o.type)
    (tables.map fun t => { t with aggregated := true })

/-! ### Selections -/

/-- What a `select` ranges over. -/
structure Range where
  /-- The chain that its parameter stands for. -/
  binding : BindingId
  /-- The table, if the chain names one. -/
  table? : Option TableId
  /-- The tables that the source ranges over. -/
  tables : List MappedTable

/-- The range of the `select` `e` over a compiled source. -/
def compileRange (s : Statement) (e : Expr) (c : Compiled) : Compile Range := do
  let some (root, path) := c.chain? | refuse e .selectSource
  match ← lookup s root path with
  | some .shape => refuse e .selectOverShape
  | some (.table id _) => return ⟨← bind root path, some id, c.tables⟩
  | _ => return ⟨← bind root path, none, c.tables⟩

/-- The scope of the body of a `select`. -/
def Range.scope (r : Range) (scope : Scope) (param : String) : Scope :=
  { scope with
    locals := (param, r.binding) :: scope.locals
    table := r.table?.getD scope.table }

/-- The result of a `select` with a compiled body. -/
def Range.result (r : Range) (s : Statement) (scope : Scope) (body : Compiled) : Compiled :=
  let own : List MappedTable :=
    match r.table? with
    | some id => [⟨id, [], scope.beneath, s.cardinality id == .one⟩]
    | none => []
  { body with tables := r.tables ++ own ++ body.tables }

/-- A collection as its only element. -/
def compileOne (e : Expr) (c : Compiled) : Compile Compiled := do
  let isElement (t : MappedTable) : Bool := t.target.isEmpty && !t.aggregated
  if c.tables.any isElement then
    return { c with
      tables := c.tables.map fun t => if isElement t then { t with single := true } else t }
  else refuse e .oneSource

end NestedQuery
