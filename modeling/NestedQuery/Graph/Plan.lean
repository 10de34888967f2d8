import NestedQuery.Target
import NestedQuery.Value.Basic

/-!
# Materialization plans

A `Plan` says how the columns of a flat result rebuild nested elements. Its levels form a tree:
level 0 is the root, with one element for each distinct row of the primary table; every other
level hangs below its parent at a target and has one element for each distinct chain of row
numbers from the root down to it.

A plan grows by `Plan.addRowId`, `Plan.addLevel`, `Plan.addColumn` and `Plan.addWitness`.
-/

namespace NestedQuery

/-- A row number that must stay the same within an element: that of a table which the element
reads row by row without being a level of its own. -/
structure Witness where
  /-- The place of the row number among those of the plan. -/
  rowId : Nat
  /-- The table's name. -/
  table : String
  deriving Repr, DecidableEq

/-- A kind of element. -/
structure Level where
  /-- The level that it hangs below; the root level has none. -/
  parent? : Option Nat
  /-- The place of its row number among those of the plan. -/
  rowId : Nat
  /-- Whether there is one element or null for each parent, instead of a collection. -/
  single : Bool
  /-- Where it hangs, seen from its parent's element. -/
  target : Target
  /-- Where it hangs, seen from the root, in messages. -/
  label : String
  /-- The table's name. -/
  table : String
  /-- The row numbers that must stay the same within an element. -/
  witnesses : List Witness := []
  deriving Repr, DecidableEq

/-- The level with a witness, unless it has it already. -/
def Level.addWitness (l : Level) (w : Witness) : Level :=
  if w ∈ l.witnesses then l else { l with witnesses := l.witnesses ++ [w] }

/-- A cell of an element. -/
structure PlanColumn where
  /-- The column's name in the result. -/
  name : String
  /-- The level of the element. -/
  level : Nat
  /-- Where the cell lands, seen from its element. -/
  target : Target
  /-- The type it is converted to. -/
  type : ValueType
  deriving Repr, DecidableEq

/-- How the columns of a result rebuild nested elements. -/
structure Plan where
  /-- The levels; parents come before children. -/
  levels : List Level := []
  /-- For each level the places of those that hang below it. -/
  childLists : List (List Nat) := []
  /-- The cells. -/
  columns : List PlanColumn := []
  /-- The names of the row number columns in the result. -/
  rowIds : List String := []
  deriving Repr, DecidableEq, Inhabited

namespace Plan

/-- The plan with only a root level, for a row number and a table. -/
def root (rowId table : String) : Plan where
  levels := [⟨none, 0, false, [], "", table, []⟩]
  childLists := [[]]
  rowIds := [rowId]

/-- The place of a row number column, which is added if it is new. -/
def addRowId (p : Plan) (name : String) : Nat × Plan :=
  match p.rowIds.idxOf? name with
  | some i => (i, p)
  | none => (p.rowIds.length, { p with rowIds := p.rowIds ++ [name] })

/-- The lists of children with the place of a new level in that of its parent. -/
def addChild (p : Plan) : Option Nat → List (List Nat)
  | none => p.childLists
  | some parent => p.childLists.modify parent fun places => places ++ [p.levels.length]

/-- The plan with one more level. Its place is the old number of levels. -/
def addLevel (p : Plan) (level : Level) : Plan :=
  { p with
    levels := p.levels ++ [level]
    childLists := p.addChild level.parent? ++ [[]] }

/-- The plan with one more cell. -/
def addColumn (p : Plan) (column : PlanColumn) : Plan :=
  { p with columns := p.columns ++ [column] }

/-- The plan with a witness at a level. -/
def addWitness (p : Plan) (level : Nat) (w : Witness) : Plan :=
  { p with levels := p.levels.modify level fun l => l.addWitness w }

/-- The levels that hang below a level, in the order in which they were added. -/
def children (p : Plan) (level : Nat) : List Nat :=
  (p.childLists[level]?).getD []

end Plan

end NestedQuery
