import NestedQuery.Statement

/-!
# The tables that a statement keeps

A left join that nothing reads is left out of the statement. `Statement.kept` starts from the
tables that something needs, the primary table and all inner joins, and passes over the tables of
the statement again and again. Each pass marks what the join conditions of marked tables read; the
passes end with one that marks nothing more.
-/

namespace NestedQuery

namespace Statement

/-- The tables that the join condition of a table needs. -/
def joinNeeds (s : Statement) (id : TableId) : List TableId :=
  (((s.join? id).bind Join.on?).map Term.neededTables).getD []

/-- Whether a table is in the statement whatever reads it. -/
def isFixed (s : Statement) (id : TableId) : Bool :=
  match s.join? id with
  | none => true
  | some j => j.kind == .inner

/-- The marked tables, with those that the join condition of `id` needs if `id` is marked. -/
def markNeeds (s : Statement) (marked : List TableId) (id : TableId) : List TableId :=
  if marked.contains id then
    s.tableIds.filter fun t => marked.contains t || (s.joinNeeds id).contains t
  else marked

/-- One pass over the tables, in order. What is marked on the way counts from there on. -/
def markAll (s : Statement) (marked : List TableId) : List TableId :=
  s.tableIds.foldl s.markNeeds marked

theorem length_markNeeds_le (s : Statement) (marked : List TableId) (id : TableId) :
    (s.markNeeds marked id).length ≤ max marked.length s.tableIds.length := by
  unfold markNeeds
  split
  · exact Nat.le_trans (List.length_filter_le _ _) (Nat.le_max_right _ _)
  · exact Nat.le_max_left _ _

theorem length_markAll_le (s : Statement) (marked : List TableId) :
    (s.markAll marked).length ≤ max marked.length s.tableIds.length := by
  unfold markAll
  refine List.foldlRecOn (motive := fun tables : List TableId => tables.length ≤ max _ _) _ _
    (Nat.le_max_left _ _) fun tables htables id _ => ?_
  have hstep := s.length_markNeeds_le tables id
  omega

/-- The marked tables after as many passes as it takes until one marks nothing more. -/
def closeNeeds (s : Statement) (marked : List TableId) : List TableId :=
  let next := s.markAll marked
  if marked.length < next.length then s.closeNeeds next else next
termination_by s.tableIds.length - marked.length
decreasing_by
  have hnext := s.length_markAll_le marked
  simp +zetaDelta only at *
  omega

/-- The tables that the filter and the ordering need. -/
def clauseNeeds (s : Statement) : List TableId :=
  (s.filter?.map Term.neededTables).getD [] ++ s.order.flatMap fun (key, _) => Term.neededTables key

/-- The tables that are marked before the first pass, if `needed` are needed. -/
def seeds (s : Statement) (needed : List TableId) : List TableId :=
  s.tableIds.filter fun t => s.isFixed t || needed.contains t || s.clauseNeeds.contains t

/-- The tables that the statement keeps if `needed` are needed. -/
def kept (s : Statement) (needed : List TableId) : List TableId :=
  s.closeNeeds (s.seeds needed)

end Statement

end NestedQuery
