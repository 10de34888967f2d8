import NestedQuery.Graph.Decode
import NestedQuery.Graph.Materialize
import NestedQuery.Mapping.Compile
import NestedQuery.Select.Assemble
import NestedQuery.Sql.Render

/-!
# Queries

A `QuerySpec` is a query before its mapping: the tables of its shape with their join conditions,
filters, an ordering and paging, all over mapping expressions. `QuerySpec.compile` turns it and a
mapping into a `Query`: one statement, the plan for its rows, and the parameters.

A query can be executed any number of times. `Query.render` gives the statement for one
execution, `Query.fetchRows` reads the rows of a cursor one by one, and `Query.fetchStream` reads
a stream of rows that may fail at any point. `Query.decoded` checks the documents against a type.
-/

namespace NestedQuery

/-- A table to join, with its condition. -/
structure JoinSpec extends Source where
  /-- How many of its rows belong to one row of the shape. -/
  cardinality : Cardinality
  /-- What happens to rows without a partner. -/
  kind : JoinKind
  /-- The join condition. -/
  condition : Expr

/-- A query before its mapping. -/
structure QuerySpec where
  /-- The table whose rows are the elements of the result. -/
  primary : Source
  /-- The tables to join, in order. -/
  joins : List JoinSpec := []
  /-- Conditions that all must hold. -/
  filters : List Expr := []
  /-- The ordering, most significant key first. -/
  order : List (Expr × Direction) := []
  /-- How many rows are left out. -/
  skip? : Option Nat := none
  /-- How many rows are taken at most. -/
  take? : Option Nat := none

/-- How queries are written and executed. -/
structure Settings where
  /-- The database. -/
  engine : Engine := .ansi
  /-- How fields are stored. -/
  naming : Naming := .snakeCase

/-- A compiled query. -/
structure Query where
  /-- The statement. -/
  sql : Fragment
  /-- The plan for its rows. -/
  plan : Plan
  /-- The parameters. -/
  pool : Pool
  /-- The database. -/
  engine : Engine

/-! ### Compiling -/

/-- A step that compiles expressions with the parameters so far: its value, with more
parameters. -/
abbrev WithPool (α : Type) := Pool → Result (α × Pool)

/-- Runs a compilation with the parameters so far and no bindings; yields the bindings too. -/
def Compile.runWith {α : Type} (action : Compile α) : WithPool (α × List Binding) := fun pool =>
  match action.run { pool := pool } with
  | (.ok a, c) => .ok ((a, c.bindings), c.pool)
  | (.error e, _) => .error e

/-- A condition or ordering key over the tables of a statement. -/
def conditionTerm (naming : Naming) (s : Statement) (e : Expr) : WithPool Term := fun pool => do
  let ((acc, bindings), pool) ← (compileCondition s e).runWith pool
  return (← Resolver.resolveTree ⟨s, naming, bindings⟩ acc, pool)

namespace Statement

/-- Refuses the condition of a join that reads a table which is joined later. -/
def checkJoin (s : Statement) (id : TableId) (condition : Term) : Result Unit :=
  match (Term.columns condition).find? fun c => id < c.table with
  | some c => .error (.unsupported (s.path id) (.readsLaterJoin (s.path c.table)))
  | none => .ok ()

/-- The statement with the condition of a joined table. -/
def setCondition (s : Statement) (id : TableId) (condition : Term) : Statement :=
  { s with joins := s.joins.modify (id - 1) fun j => { j with on? := some condition } }

/-- The statement with the conditions of its joins; the first of them belongs to table `id`. -/
def addConditions (naming : Naming) (id : TableId) :
    List JoinSpec → Statement → WithPool Statement
  | [], s => fun pool => .ok (s, pool)
  | j :: js, s => fun pool => do
    let (condition, pool) ← conditionTerm naming s j.condition pool
    s.checkJoin id condition
    addConditions naming (id + 1) js (s.setCondition id condition) pool

/-- The statement with a filter. -/
def addFilter (naming : Naming) : Option Expr → Statement → WithPool Statement
  | none, s => fun pool => .ok (s, pool)
  | some e, s => fun pool => do
    let (term, pool) ← conditionTerm naming s e pool
    return ({ s with filter? := some term }, pool)

/-- The statement with an ordering. -/
def addOrder (naming : Naming) : List (Expr × Direction) → Statement → WithPool Statement
  | [], s => fun pool => .ok (s, pool)
  | (e, direction) :: rest, s => fun pool => do
    let (term, pool) ← conditionTerm naming s e pool
    addOrder naming rest { s with order := s.order ++ [(term, direction)] } pool

end Statement

namespace QuerySpec

/-- The tables of the query, with no conditions yet. -/
def tables (q : QuerySpec) : Statement where
  primary := q.primary
  joins := q.joins.map fun j => { j with on? := none }
  skip? := q.skip?
  take? := q.take?

/-- All filters in one. -/
def filter? (q : QuerySpec) : Option Expr :=
  match q.filters with
  | [] => none
  | e :: es => some (es.foldl (.binary .and) e)

/-- The tables with their join conditions, the filter and the ordering. -/
def statement (naming : Naming) (q : QuerySpec) : WithPool Statement := fun pool => do
  let (s, pool) ← q.tables.addConditions naming 1 q.joins pool
  let (s, pool) ← s.addFilter naming q.filter? pool
  s.addOrder naming q.order pool

/-- A mapping with its leaves resolved. -/
def resolveOutputs (r : Resolver) (outputs : List (Output Symbol)) :
    Result (List (Output Cell)) :=
  outputs.mapM fun o => return ⟨← r.resolveTree o.value, o.target, o.type⟩

/-- The query with a mapping, compiled. -/
def compile (settings : Settings) (q : QuerySpec) (mapping : Expr) : Assembly Query := do
  let (s, pool) ← q.statement settings.naming {}
  let ((compiled, bindings), pool) ← (compileMapping s mapping).runWith pool
  let outputs ← resolveOutputs ⟨s, settings.naming, bindings⟩ compiled.outputs
  let assembler : Assembler := ⟨s, pool, settings.engine⟩
  let assembled ← assembler.assemble outputs compiled.tables
  return ⟨assembled.sql, assembled.plan, pool, settings.engine⟩

end QuerySpec

/-- The message of a mapping that was compiled. -/
def compiledEntry (mapping : Expr) : LogEntry :=
  ⟨.info, .compiled, "compiled `" ++ mapping.text ++ "`"⟩

/-! ### Executing -/

namespace Query

/-- The statement for one execution. -/
def render (q : Query) (arguments : Document) : Result Rendered := do
  q.sql.render q.engine.dialect (← q.pool.bind arguments)

/-- Reads the rows of a cursor one by one, and counts them. -/
def readCursor (p : Plan) (count : Nat) (c : Cursor) : Build Nat :=
  match h : c.next with
  | .error e => throw e
  | .ok none => return count
  | .ok (some (r, rest)) => do
    Graph.push p r
    readCursor p (count + 1) rest
termination_by c.rows.length
decreasing_by exact Cursor.rows_length_lt_of_next h

/-- Reads a stream of rows up to its first failure, and counts them. -/
def readStream (p : Plan) (count : Nat) : List (Result Row) → Build Nat
  | [] => return count
  | .error e :: _ => throw e
  | .ok r :: rest => do
    Graph.push p r
    readStream p (count + 1) rest

/-- Executions: they add messages and may fail. -/
abbrev Execute := ExceptT Error (StateM (List LogEntry))

/-- Adds a message of the ordinary course. -/
def report (code : LogCode) (text : String) : Execute Unit :=
  modify fun log => log ++ [⟨.info, code, text⟩]

/-- The outcome of a step without messages. -/
def ofResult {α : Type} : Result α → Execute α
  | .ok a => pure a
  | .error e => throw e

/-- The outcome of reading rows, with the messages of building and the graph. -/
def ofBuild {α : Type} (action : Build α) : Execute (α × Graph) := do
  let (outcome, g) := action.run {}
  modify fun log => log ++ g.log
  return (← ofResult outcome, g)

/-- The documents of one execution. `execute` hands the statement to the database, and `read`
reads what comes back. -/
def fetchWith {ρ : Type} (read : Plan → ρ → Build Nat) (q : Query)
    (execute : Rendered → Result ρ) (arguments : Document) : Execute (List Document) := do
  let rendered ← ofResult (q.render arguments)
  report .executing rendered.text
  let answer ← ofResult (execute rendered)
  report .executed "executed"
  let (count, g) ← ofBuild (read q.plan answer)
  let documents := g.finish q.plan
  report .materialized s!"materialized {documents.length} values from {count} rows"
  return documents

/-- The documents of an execution whose rows are read from a cursor. -/
def fetchRows : Query → (Rendered → Result Cursor) → Document → Execute (List Document) :=
  fetchWith fun p c => readCursor p 0 c

/-- The documents of an execution whose rows come as a stream. -/
def fetchStream :
    Query → (Rendered → Result (List (Result Row))) → Document → Execute (List Document) :=
  fetchWith fun p rows => readStream p 0 rows

/-- The documents of an execution as values of the type that is asked for. -/
def decoded (wanted : Wanted) (fetch : Execute (List Document)) : Execute (List Document) := do
  let documents ← fetch
  ofResult (documents.mapM (Document.decode wanted))

end Query

end NestedQuery
