import NestedQuery.Graph.Plan
import NestedQuery.Mapping.Compiled
import NestedQuery.Sql.Engine
import NestedQuery.Statement

/-!
# Drafts of plans

A `Draft` is a plan under construction, together with the tables behind its row numbers and the
place of each level in the result. `Draft.ofTables` lays out the levels, shallowest first;
`Draft.addOutput` puts one output of the mapping at the deepest level that encloses it.
-/

namespace NestedQuery

/-- Where a level stands in the result. -/
structure Place where
  /-- The level's table. -/
  table : TableId
  /-- Its target, seen from the root. -/
  target : Target
  /-- The tables of the level and of those above it. -/
  lineage : List TableId
  deriving Repr, DecidableEq

/-- An output of a mapping after resolution, with its column's name in the result. -/
structure Projected where
  /-- The value. -/
  value : Term
  /-- The column's name. -/
  name : String

/-- A plan under construction. -/
structure Draft where
  /-- The plan. -/
  plan : Plan
  /-- The tables whose row numbers the plan reads, in its order. -/
  rowIdTables : List TableId
  /-- The places of the plan's levels, in their order. -/
  places : List Place
  /-- The outputs so far. -/
  outputs : List Projected := []
  /-- The tables that serve as witnesses so far. -/
  witnesses : List TableId := []

/-- The name of the column for a value that is the whole element. -/
def selfName : String := "##self"

/-- The first of `base`, `base~1`, `base~2`, … that is not in use. -/
def freshName (used : List String) (base : String) : String :=
  let numbered := (List.range (used.length + 1)).map fun n => s!"{base}~{n + 1}"
  ((base :: numbered).find? fun name => !used.contains name).getD base

/-- The last place whose target encloses `t`, with what is left of `t` below it. Without any, the
root. -/
def enclosing (places : List Place) (t : Target) : Nat × Target :=
  let below := places.zipIdx.filterMap fun (p, i) =>
    (Target.below? p.target t).map fun rest => (i, rest)
  below.getLast?.getD (0, t)

namespace Draft

/-- The draft with only the root level. -/
def root (s : Statement) : Draft where
  plan := .root (rowIdName (tableAlias 0)) s.primary.table.name
  rowIdTables := [0]
  places := [⟨0, [], [0]⟩]

/-- The place of a table's row number, which is added if it is new. -/
def rowId (d : Draft) (t : TableId) : Nat × Draft :=
  let (i, plan) := d.plan.addRowId (rowIdName (tableAlias t))
  let tables := if i = d.rowIdTables.length then d.rowIdTables ++ [t] else d.rowIdTables
  (i, { d with plan := plan, rowIdTables := tables })

/-- The lineage of the level at a place. -/
def lineage (d : Draft) (level : Nat) : List TableId :=
  (d.places[level]?.map Place.lineage).getD []

/-- The draft with a level for a mapped table, unless the enclosing level is one of the same
table, or the level is there. -/
def addTable (s : Statement) (d : Draft) (m : MappedTable) : Draft :=
  let (parent, below) := enclosing d.places m.target
  let lineage := d.lineage parent
  let known := d.places.any fun p => p.table == m.table && p.target == m.target
  if known || lineage.head? == some m.table then d
  else
    let (rowId, d) := d.rowId m.table
    let level : Level :=
      ⟨some parent, rowId, m.single, below, Target.text m.target, s.tableName m.table, []⟩
    { d with
      plan := d.plan.addLevel level
      places := d.places ++ [⟨m.table, m.target, m.table :: lineage⟩] }

/-- The draft with a level for every mapped table that has elements, shallowest first. -/
def ofTables (s : Statement) (tables : List MappedTable) : Draft :=
  let mapped := (tables.filter fun m => !m.aggregated).mergeSort fun m n =>
    m.target.length ≤ n.target.length
  mapped.foldl (addTable s) (root s)

/-- The tables whose rows the value reads outside aggregates, other than those of the lineage,
in the order of the leaves. -/
def witnessTables (lineage : List TableId) (value : Term) : List TableId :=
  let read := value.visit.filterMap fun (leaf, beneath) =>
    if beneath then none else leaf.rowId?.map ColumnRef.table
  (read.filter fun t => !lineage.contains t).eraseDups

/-- The draft with a table as a witness at a level. -/
def addWitness (s : Statement) (level : Nat) (d : Draft) (t : TableId) : Draft :=
  let (rowId, d) := d.rowId t
  { d with
    plan := d.plan.addWitness level ⟨rowId, s.tableName t⟩
    witnesses := d.witnesses ++ [t] }

/-- The draft with one more output, at the deepest level that encloses it. -/
def addOutput (s : Statement) (d : Draft) (o : Output Cell) : Draft :=
  let (level, below) := enclosing d.places o.target
  let d := (witnessTables (d.lineage level) o.value).foldl (addWitness s level) d
  let base := if o.target.isEmpty then selfName else Target.text o.target
  let name := freshName (d.outputs.map Projected.name) base
  { d with
    plan := d.plan.addColumn ⟨name, level, below, o.type⟩
    outputs := d.outputs ++ [⟨o.value, name⟩] }

/-- The draft for all mapped tables and outputs of a mapping. -/
def ofMapping (s : Statement) (tables : List MappedTable) (outputs : List (Output Cell)) :
    Draft :=
  outputs.foldl (addOutput s) (ofTables s tables)

/-- The tables that the draft needs: those of its levels, its witnesses and its outputs. -/
def neededTables (d : Draft) : List TableId :=
  d.places.map Place.table ++ d.witnesses
    ++ d.outputs.flatMap fun o => Term.neededTables o.value

end Draft

end NestedQuery
