import NestedQuery.Leaf
import NestedQuery.Target

/-!
# Compiled mappings

What a mapping expression compiles to: `Output`s, each an accumulator with the place where its
value lands, and `MappedTable`s, the tables whose rows the mapping ranges over. `Compiled.under`
moves a result below a member or position, `Compiled.member` takes out what lies below one;
`member_under` says that the second undoes the first.
-/

namespace NestedQuery

/-- One output value. -/
structure Output (α : Type) where
  /-- How the value is computed. -/
  value : Accumulator α
  /-- Where it lands. -/
  target : Target
  /-- Its declared type. -/
  type : ValueType

/-- A table whose rows land at a target. -/
structure MappedTable where
  /-- The table. -/
  table : TableId
  /-- Where its elements land. -/
  target : Target
  /-- Whether its rows are only folded into an aggregate, without elements of their own. -/
  aggregated : Bool
  /-- Whether there is one element instead of a collection. -/
  single : Bool
  deriving Repr, DecidableEq

/-- The result of compiling an expression. -/
structure Compiled where
  /-- The output values. -/
  outputs : List (Output Symbol) := []
  /-- The tables that are ranged over. -/
  tables : List MappedTable := []
  deriving Inhabited

namespace Compiled

/-- The result that is one value. -/
def ofValue (value : Accumulator Symbol) (type : ValueType) (tables : List MappedTable := []) :
    Compiled :=
  ⟨[⟨value, [], type⟩], tables⟩

/-- The value, if the result is one value and nothing else. -/
def value? (c : Compiled) : Option (Output Symbol) :=
  match c.outputs with
  | [o] => if o.target = [] then some o else none
  | _ => none

/-- Two results side by side. -/
def append (c d : Compiled) : Compiled :=
  ⟨c.outputs ++ d.outputs, c.tables ++ d.tables⟩

instance : Append Compiled := ⟨append⟩

/-- The result moved below a step. -/
def under (c : Compiled) (s : Segment) : Compiled :=
  ⟨c.outputs.map fun o => { o with target := s :: o.target },
    c.tables.map fun t => { t with target := s :: t.target }⟩

/-- What lies below a step, taken out. -/
def member (c : Compiled) (s : Segment) : Compiled :=
  ⟨c.outputs.filterMap fun o => (Target.after? s o.target).map fun t => { o with target := t },
    c.tables.filterMap fun m => (Target.after? s m.target).map fun t => { m with target := t }⟩

theorem member_under (c : Compiled) (s : Segment) : (c.under s).member s = c := by
  obtain ⟨outputs, tables⟩ := c
  simp only [member, under, mk.injEq]
  constructor
  · induction outputs with
    | nil => rfl
    | cons o os ih =>
      simp only [List.map_cons, List.filterMap_cons, Target.after?_cons, Option.map_some, ih]
  · induction tables with
    | nil => rfl
    | cons t ts ih =>
      simp only [List.map_cons, List.filterMap_cons, Target.after?_cons, Option.map_some, ih]

end Compiled

end NestedQuery
