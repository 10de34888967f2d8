import NestedQuery.Graph.Convert
import NestedQuery.Graph.Log
import NestedQuery.Graph.Plan
import NestedQuery.Graph.Row
import NestedQuery.Graph.Shape

/-!
# Materialization

Rows are read once, in order. At each level of the plan an element is known by its `Chain`: the
row numbers of the levels from the root down to it. The elements stand in one list, in the order
in which they were made, and refer to each other by their places there; an index leads from a
level and a chain to the place of the element.

`Graph.push` walks the levels of one row. For a chain that the index lacks it makes an element
with the cells of this row, enters it into the index, and links it into a `ChildSlot` of the element
above it; a chain that is known is checked against its witnesses. `Graph.finish` builds the
documents from the roots down, along the slots.

A row that is refused leaves what was made before the failure, so the graph is state that outlives
errors.
-/

namespace NestedQuery

/-- The row numbers from the root down to an element. -/
abbrev Chain := List Int64

/-- The places of the elements at one child level of an element. -/
inductive ChildSlot where
  /-- A collection, in the order in which its elements came. -/
  | many (places : List Nat)
  /-- One element, or none so far. -/
  | one (place? : Option Nat)

namespace ChildSlot

/-- Whether there is room for no further element. -/
def isFull : ChildSlot → Bool
  | many _ => false
  | one place? => place?.isSome

/-- The slot with one more element, if it has room. -/
def add (place : Nat) : ChildSlot → ChildSlot
  | many places => many (places ++ [place])
  | one place? => one (place?.or (some place))

end ChildSlot

/-- An element. -/
structure Node where
  /-- Its level. -/
  level : Nat
  /-- Its cells with their targets, in the order of the plan's columns. -/
  cells : List (Target × Document)
  /-- What is below it, for each child level of its level. -/
  slots : List ChildSlot
  /-- The row numbers of its witnesses. -/
  witnesses : List (Option Int64)

/-- The element with one more element in the slot at a place. -/
def Node.fill (slot place : Nat) (n : Node) : Node :=
  { n with slots := n.slots.modify slot (ChildSlot.add place) }

/-- Where a row has the columns of a plan. -/
structure Positions where
  /-- The positions of the cells, in the order of the plan's columns. -/
  columns : List Nat
  /-- The positions of the row numbers, in the order of the plan. -/
  rowIds : List Nat
  deriving Repr, DecidableEq

/-- What has been built so far. -/
structure Graph where
  /-- Where rows have the columns, once a row has been seen. -/
  positions? : Option Positions := none
  /-- The elements, in the order in which they were made. -/
  nodes : List Node := []
  /-- The places of the elements by their levels and chains, those of the last ones first. -/
  index : List ((Nat × Chain) × Nat) := []
  /-- The places of the root elements, in the order in which they came. -/
  roots : List Nat := []
  /-- The columns whose inefficient conversion has been reported. -/
  warned : List Nat := []
  /-- The messages so far. -/
  log : List LogEntry := []

/-- Steps of building: they change the graph and may fail. -/
abbrev Build := ExceptT Error (StateM Graph)

namespace Build

variable {α : Type}

/-- The outcome of a step that builds nothing. -/
def ofResult : Result α → Build α
  | .ok a => pure a
  | .error e => throw e

/-- Adds a message. -/
def say (level : LogLevel) (code : LogCode) (text : String) : Build Unit :=
  modify fun g => { g with log := g.log ++ [⟨level, code, text⟩] }

end Build

/-! ### Columns -/

/-- The position of a column in a header. -/
def findColumn (header : List String) (name : String) : Result Nat :=
  match header.idxOf? name with
  | some i => .ok i
  | none => .error (.unconvertible (.missingColumn name))

/-- Where a row with a header has the columns of a plan. -/
def Plan.positions (p : Plan) (header : List String) : Result Positions := do
  let columns ← p.columns.mapM fun c => findColumn header c.name
  let rowIds ← p.rowIds.mapM (findColumn header)
  return ⟨columns, rowIds⟩

/-- The row numbers that a row has for a plan. -/
def Positions.rowNumbers (ps : Positions) (r : Row) : List (Option Int64) :=
  ps.rowIds.map fun i => (r.get? i).bind Value.rowId?

namespace Graph

/-- Where rows have the columns of the plan; the first row decides. -/
def resolvePositions (p : Plan) (r : Row) : Build Positions := do
  match (← get).positions? with
  | some ps => return ps
  | none =>
    let ps ← Build.ofResult (p.positions r.columns)
    modify fun g => { g with positions? := some ps }
    return ps

/-! ### Elements -/

/-- Reports the inefficient conversion of a column, the first time. -/
def warn (index : Nat) (c : PlanColumn) : Build Unit := do
  unless (← get).warned.contains index do
    modify fun g => { g with warned := index :: g.warned }
    Build.say .warning .inefficient
      ("column `" ++ c.name ++ "` converted to " ++ c.type.name
        ++ " from a different collection representation; select it as " ++ c.type.name
        ++ " directly")

/-- The converted cell of a column, which stands at a position of the row. -/
def readCell (r : Row) (index position : Nat) (c : PlanColumn) : Build (Target × Document) := do
  match r.get? position with
  | none => throw (.unconvertible (.missingCell c.name))
  | some cell =>
    let converted ← Build.ofResult (cell.convert c.type)
    if converted.inefficient then warn index c
    return (c.target, converted.document)

/-- The cells of a new element. -/
def readCells (p : Plan) (ps : Positions) (r : Row) (level : Nat) :
    Build (List (Target × Document)) :=
  ((p.columns.zip ps.columns).zipIdx.filter fun ((c, _), _) => c.level == level).mapM
    fun ((c, position), index) => readCell r index position c

/-- An empty slot for a child level. -/
def emptySlot (p : Plan) (child : Nat) : ChildSlot :=
  if (p.levels[child]?).any Level.single then .one none else .many []

/-- Makes an element with the cells of a row, and yields its place. -/
def create (p : Plan) (ps : Positions) (r : Row) (index : Nat) (level : Level) (id : Int64)
    (witnesses : List (Option Int64)) : Build Nat := do
  let cells ← readCells p ps r index
  let place := (← get).nodes.length
  let n : Node := ⟨index, cells, (p.children index).map (emptySlot p), witnesses⟩
  modify fun g => { g with nodes := g.nodes ++ [n] }
  Build.say .debug .allocated
    ("allocated `" ++ level.table ++ "` element for row id " ++ toString id.toInt ++ " at `"
      ++ level.label ++ "`")
  return place

/-- Enters the place of an element into the index. -/
def enter (index : Nat) (chain : Chain) (place : Nat) : Build Unit :=
  modify fun g => { g with index := ((index, chain), place) :: g.index }

/-- The element at a place, and which of its slots is for a level. -/
def slotFor? (p : Plan) (g : Graph) (index place : Nat) : Option (Node × Nat) := do
  let n ← g.nodes[place]?
  return (n, ← (p.children n.level).idxOf? index)

/-- Links a new element to the element above it; a root element has none. A second element for a
slot that holds one is refused. -/
def link (p : Plan) (parent? : Option Nat) (index : Nat) (level : Level) (place : Nat)
    (id : Int64) : Build Unit := do
  match parent? with
  | none => modify fun g => { g with roots := g.roots ++ [place] }
  | some parent =>
    match (← get).slotFor? p index parent with
    | none => throw (.invariant (.other "level is not a child of its parent"))
    | some (n, slot) =>
      if (n.slots[slot]?).any ChildSlot.isFull then
        throw (.crowded level.table level.label (.secondRow id))
      modify fun g => { g with nodes := g.nodes.modify parent (Node.fill slot place) }

/-- Makes an element, enters it into the index and links it. If it is refused then, it stays in the
index. -/
def make (p : Plan) (ps : Positions) (r : Row) (index : Nat) (level : Level)
    (parent? : Option Nat) (chain : Chain) (id : Int64) (witnesses : List (Option Int64)) :
    Build Nat := do
  let place ← create p ps r index level id witnesses
  enter index chain place
  link p parent? index level place id
  return place

/-- The first witness of a level that two lists of row numbers disagree about. -/
def disagreement? : List Witness → (seen now : List (Option Int64)) → Option Witness
  | w :: ws, a :: as, b :: bs => if a = b then disagreement? ws as bs else some w
  | _, _, _ => none

/-- Checks the witnesses of an element that is known against those of a row. -/
def checkWitnesses (level : Level) (seen now : List (Option Int64)) : Result Unit :=
  match disagreement? level.witnesses seen now with
  | some w => .error (.crowded w.table level.label .ambiguousValue)
  | none => .ok ()

/-- The witnesses of the element at a place. -/
def witnessesAt (g : Graph) (place : Nat) : List (Option Int64) :=
  ((g.nodes[place]?).map Node.witnesses).getD []

/-- Visits the element of a row with a level and a chain, and yields its place. -/
def visit (p : Plan) (ps : Positions) (r : Row) (rowNumbers : List (Option Int64)) (index : Nat)
    (level : Level) (parent? : Option Nat) (chain : Chain) (id : Int64) : Build Nat := do
  let witnesses := level.witnesses.map fun w => (rowNumbers[w.rowId]?).join
  let g ← get
  match g.index.lookup (index, chain) with
  | some place =>
    Build.ofResult (checkWitnesses level (g.witnessesAt place) witnesses)
    return place
  | none => make p ps r index level parent? chain id witnesses

/-- What a row has visited at a level: the place and the chain of an element, if it has one. -/
abbrev Visited := Option (Nat × Chain)

/-- The place and the chain of what is above a level, if the row has that: `visited` is what the
row has visited at the levels before. A root level has no element above it. -/
def above? (level : Level) (visited : List Visited) : Option (Option Nat × Chain) :=
  match level.parent? with
  | none => some (none, [])
  | some i => (visited[i]?).join.map fun (place, chain) => (some place, chain)

/-- Visits the levels from the place `index` on. -/
def pushLevels (p : Plan) (ps : Positions) (r : Row) (rowNumbers : List (Option Int64))
    (index : Nat) (visited : List Visited) : List Level → Build Unit
  | [] => return ()
  | level :: rest => do
    match above? level visited, (rowNumbers[level.rowId]?).join with
    | some (parent?, above), some id =>
      let chain := above ++ [id]
      let place ← visit p ps r rowNumbers index level parent? chain id
      pushLevels p ps r rowNumbers (index + 1) (visited ++ [some (place, chain)]) rest
    | some (parent?, _), none =>
      if parent?.isNone then
        throw (.unconvertible (.nullRoot ((p.rowIds[level.rowId]?).getD "")))
      else pushLevels p ps r rowNumbers (index + 1) (visited ++ [none]) rest
    | none, _ => pushLevels p ps r rowNumbers (index + 1) (visited ++ [none]) rest

/-- Reads one row. -/
def push (p : Plan) (r : Row) : Build Unit := do
  let ps ← resolvePositions p r
  pushLevels p ps r (ps.rowNumbers r) 0 [] p.levels

/-! ### Documents -/

/-- The document of a slot, from the documents of the elements at places: a list, or one document
or null. -/
def slotDocument (documentAt : Nat → Document) : ChildSlot → Document
  | .many places => .array (places.map documentAt)
  | .one place? => (place?.map documentAt).getD .null

/-- The document of the element at a place. Slots are followed `depth` steps down. -/
def documentAt (p : Plan) (nodes : List Node) : (depth : Nat) → (place : Nat) → Document
  | 0, _ => .null
  | depth + 1, place =>
    match nodes[place]? with
    | none => .null
    | some n =>
      let own := n.cells.foldl (fun shape (target, d) => shape.insert d target) Shape.empty
      let below := (n.slots.zip (p.children n.level)).filterMap fun (slot, child) =>
        (p.levels[child]?).map fun level =>
          (level.target, slotDocument (documentAt p nodes depth) slot)
      (below.foldl (fun shape (target, d) => shape.insert d target) own).toDocument

/-- The documents of the root elements, in the order in which they came. -/
def finish (p : Plan) (g : Graph) : List Document :=
  g.roots.map (documentAt p g.nodes p.levels.length)

end Graph

end NestedQuery
