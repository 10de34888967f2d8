import NestedQuery.Accumulator.Aggregation
import NestedQuery.Error
import NestedQuery.Select.Draft
import NestedQuery.Select.Kept
import NestedQuery.Select.Term

/-!
# Select statements

`assemble` turns the resolved outputs of a mapping into one `SELECT`, with the plan that rebuilds
nested results from its rows. The draft of the plan fixes the columns and row numbers to select;
if an output is aggregated, the rows are grouped by all columns read outside aggregates and all
selected row numbers; the rows are ordered by the ordering keys, then by the row numbers of the
levels.

An aggregate that repeated rows would change needs care if a collection that it does not read
multiplies its rows. Then the joined rows are numbered inside each group first (`Marker`), in a
derived table, and the aggregate takes each combination of its own rows once.
-/

namespace NestedQuery

/-- A statement and the plan for its rows. -/
structure Assembled where
  /-- The statement. -/
  sql : Fragment
  /-- The plan. -/
  plan : Plan

/-- What assembling needs to know. -/
structure Assembler where
  /-- The tables and clauses. -/
  statement : Statement
  /-- The parameters. -/
  pool : Pool
  /-- The engine. -/
  engine : Engine

/-- Computations that draw temporary names and may fail. Names that were drawn before a failure
stay drawn. -/
abbrev Assembly := ExceptT Error TempIds

namespace Assembly

variable {α β : Type}

/-- The outcome after `n` names were drawn, with how many have been drawn then. -/
def run (x : Assembly α) (n : Nat) : Result (α × Nat) :=
  match (ExceptT.run x).run n with
  | (.ok a, n') => .ok (a, n')
  | (.error e, _) => .error e

/-- How many names have been drawn after a computation, which may have failed. -/
def drawn (x : Assembly α) (n : Nat) : Nat :=
  ((ExceptT.run x).run n).2

theorem run_pure (a : α) (n : Nat) : (pure a : Assembly α).run n = .ok (a, n) := rfl

theorem run_bind (x : Assembly α) (f : α → Assembly β) (n : Nat) :
    (x >>= f).run n = x.run n >>= fun p => (f p.1).run p.2 := by
  unfold run
  rw [ExceptT.run_bind, StateT.run_bind]
  rcases (ExceptT.run x).run n with ⟨e | a, n'⟩ <;> rfl

/-- A check draws nothing. -/
theorem run_lift (x : Result α) (n : Nat) :
    (liftM x : Assembly α).run n = x >>= fun a => .ok (a, n) := by
  cases x <;> rfl

end Assembly

namespace Assembler

/-- A computation that draws temporary names, as one that may fail. -/
def draw {α : Type} (action : TempIds α) : Assembly α :=
  ExceptT.lift action

/-- The writer of terms over the joined tables. -/
def writer (a : Assembler) : TermWriter :=
  { engine := a.engine, pool := a.pool }

/-! ### Aggregates and rows -/

/-- The tables that are folded into aggregates. -/
def aggregatedTables (outputs : List (Output Cell)) (tables : List MappedTable) :
    List TableId :=
  (tables.filter MappedTable.aggregated).map MappedTable.table
    ++ outputs.flatMap fun o => o.value.visit.filterMap fun (leaf, beneath) =>
      if beneath && leaf.isFolded then leaf.column?.map ColumnRef.table else none

/-- The tables that are read row by row. -/
def rowTables (outputs : List (Output Cell)) (tables : List MappedTable) : List TableId :=
  (tables.filter fun m => !m.aggregated).map MappedTable.table
    ++ outputs.flatMap fun o => o.value.visit.filterMap fun (leaf, beneath) =>
      if beneath then none else leaf.column?.map ColumnRef.table

/-- Refuses a table that is both folded into an aggregate and read row by row; of several, the
first of the statement. -/
def checkAggregation (a : Assembler) (outputs : List (Output Cell)) (tables : List MappedTable) :
    Result Unit :=
  let rows := rowTables outputs tables
  match ((aggregatedTables outputs tables).filter rows.contains).min? with
  | some t =>
    .error (.unsupported (a.statement.path t)
      (.mixedAggregation (a.statement.tableName t)))
  | none => .ok ()

/-! ### Groups -/

/-- Whether some output is aggregated, wholly or in part. -/
def isGrouped (outputs : List (Output Cell)) : Bool :=
  outputs.any fun o => o.value.aggregation Cell.isParam != .none

/-- The columns that a term reads outside aggregates. -/
def rowColumns (t : Term) : List ColumnRef :=
  t.visit.filterMap fun (leaf, beneath) => if beneath then none else leaf.column?

/-- What the rows are grouped by: each column read outside aggregates by an output or an ordering
key, then each selected row number. -/
def groupKeys (a : Assembler) (d : Draft) : List ColumnRef :=
  (d.outputs.flatMap (fun o => rowColumns o.value)
    ++ a.statement.order.flatMap (fun (key, _) => rowColumns key)
    ++ d.rowIdTables.map rowIdRef).eraseDups

/-! ### Markers -/

/-- Whether a kept collection that is neither among `read` nor selected row by row repeats the
rows of `read`. -/
def isMultiplied (a : Assembler) (kept selected read : List TableId) : Bool :=
  kept.any fun t =>
    a.statement.cardinality t == .many && !read.contains t && !selected.contains t

/-- The tables that an aggregate needs a marker for, if it does. -/
def markedTables? (a : Assembler) (kept selected : List TableId) (function : Aggregate)
    (operand : Term) : Option (List TableId) :=
  let read := Term.readTables operand
  if function.countsDuplicates && !Term.isRowId operand && !read.isEmpty
    && a.isMultiplied kept selected read
  then some read else none

/-- The markers of all aggregates that need one; one marker for each list of tables. -/
def markers (a : Assembler) (kept : List TableId) (d : Draft) : Result (List Marker) :=
  let needed := d.outputs.flatMap fun o => o.value.aggregates.filterMap fun (function, operand) =>
    a.markedTables? kept d.rowIdTables function operand
  let markers := needed.eraseDups.zipIdx.map fun (tables, i) => (⟨s!"##d{i}", tables⟩ : Marker)
  match needed, a.engine.rowIds with
  | (t :: _) :: _, .emulated _ => .error (.unsupported (a.statement.path t) .needsWindows)
  | _, _ => .ok markers

/-! ### Parts of the statement -/

/-- The keyword of a kind of join. -/
def joinToken : JoinKind → Token
  | .inner => .inner
  | .left => .left

/-- One join. -/
def joinClause (a : Assembler) (id : TableId) (j : Join) : Assembly Fragment := do
  match j.on? with
  | none => throw (.invariant (.joinWithoutCondition j.path))
  | some condition =>
    let table ← draw (a.engine.tableSource j.table.name (tableAlias id))
    return [.token (joinToken j.kind), .token .join] ++ table ++ [.token .on_]
      ++ a.writer.term condition

/-- The kept ones of the joins whose first has the place `id`. -/
def joinClauses (a : Assembler) (kept : List TableId) (id : TableId) :
    List Join → Assembly Fragment
  | [] => return []
  | j :: js => do
    let clause ← if kept.contains id then a.joinClause id j else pure []
    return clause ++ (← a.joinClauses kept (id + 1) js)

/-- The primary table, the kept joins and the filter. -/
def sources (a : Assembler) (kept : List TableId) : Assembly Fragment := do
  let primary ← draw (a.engine.tableSource a.statement.primary.table.name (tableAlias 0))
  let joins ← a.joinClauses kept 1 a.statement.joins
  match a.statement.filter? with
  | none => return primary ++ joins
  | some filter => return primary ++ joins ++ [.token .where_] ++ a.writer.term filter

/-- Every output, then every selected row number. -/
def projection (w : TermWriter) (d : Draft) : Fragment :=
  let outputs := d.outputs.map fun o => Fragment.named (w.term o.value) o.name
  let rowIds := (d.plan.rowIds.zip d.rowIdTables).map fun (name, t) =>
    Fragment.named (w.column (rowIdRef t)) name
  .token .select :: Fragment.joined (outputs ++ rowIds) .comma

/-- The columns that the derived table hands on: all that the outputs, the ordering keys, the
group keys and the selected row numbers read. -/
def derivedColumns (a : Assembler) (d : Draft) (keys : List ColumnRef) : List ColumnRef :=
  (d.outputs.flatMap (fun o => Term.columns o.value)
    ++ a.statement.order.flatMap (fun (key, _) => Term.columns key)
    ++ keys ++ d.rowIdTables.map rowIdRef).eraseDups

/-- The rows that a marker numbers: those with the same group keys and the same rows of the
marker's tables. -/
def partition (keys : List ColumnRef) (m : Marker) : List ColumnRef :=
  (keys ++ m.tables.map rowIdRef).eraseDups

/-- The column of a marker. -/
def markerColumn (a : Assembler) (keys : List ColumnRef) (m : Marker) : Fragment :=
  let columns := Fragment.joined ((partition keys m).map a.writer.column) .comma
  Fragment.named
    (Fragment.call "ROW_NUMBER" [] ++ [.token .over_]
      ++ Fragment.parens (.raw "PARTITION BY" :: columns))
    m.name

/-- The derived table: the joined rows with the columns that are read, and the markers. -/
def derivedRows (a : Assembler) (kept : List TableId) (d : Draft) (keys : List ColumnRef)
    (markers : List Marker) : Assembly Fragment := do
  let columns := (a.derivedColumns d keys).map fun c =>
    Fragment.named (a.writer.column c) (derivedName c)
  let select := Fragment.joined (columns ++ markers.map (a.markerColumn keys)) .comma
  return [.token .select] ++ select ++ [.token .from_] ++ (← a.sources kept)

/-- The token of a direction. -/
def directionToken : Direction → Token
  | .asc => .asc
  | .desc => .desc

/-- The ordering: the keys, then the row number of every level. -/
def ordering (a : Assembler) (w : TermWriter) (d : Draft) : Fragment :=
  let keys := a.statement.order.map fun (key, direction) =>
    w.term key ++ [.token (directionToken direction)]
  let levels := d.plan.levels.map fun l =>
    w.column (rowIdRef ((d.rowIdTables[l.rowId]?).getD 0))
  [.token .order, .token .by_] ++ Fragment.joined (keys ++ levels) .comma

/-! ### The statement -/

/-- The statement for the outputs and mapped tables of a mapping, and its plan. -/
def assemble (a : Assembler) (outputs : List (Output Cell)) (tables : List MappedTable) :
    Assembly Assembled := do
  a.checkAggregation outputs tables
  let d := Draft.ofMapping a.statement tables outputs
  let kept := a.statement.kept d.neededTables
  let keys := if isGrouped outputs then a.groupKeys d else []
  let markers ← a.markers kept d
  let w := { a.writer with markers? := if markers.isEmpty then none else some markers }
  let source ←
    if markers.isEmpty then a.sources kept
    else
      let rows ← a.derivedRows kept d keys markers
      pure (Fragment.named rows.parens derivedTable)
  let grouping : Fragment :=
    if isGrouped outputs then
      [.token .group, .token .by_] ++ Fragment.joined (keys.map w.column) .comma
    else []
  let paging := (a.engine.paging a.statement.skip? a.statement.take?).getD []
  return ⟨projection w d ++ [.token .from_] ++ source ++ grouping ++ a.ordering w d ++ paging,
    d.plan⟩

end Assembler

end NestedQuery
