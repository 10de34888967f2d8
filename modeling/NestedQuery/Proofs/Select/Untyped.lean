import NestedQuery.Proofs.Mapping.Simulation
import NestedQuery.Query

/-!
# What types and parameters decide

The types of the outputs of a mapping end up in the columns of the plan and decide nothing else:
without them the same statement is assembled, and the same plan without its types
(`Assembler.assemble_untyped`). Of the parameters, a statement is written with their marks only, not
with what they come from (`Assembler.assemble_congr`).
-/

namespace NestedQuery

/-! ### Plans without types -/

/-- The cell without its type. -/
def PlanColumn.untyped (c : PlanColumn) : PlanColumn :=
  { c with type := .any }

/-- The plan without the types of its cells. -/
def Plan.untyped (p : Plan) : Plan :=
  { p with columns := p.columns.map PlanColumn.untyped }

/-- The statement and its plan without types. -/
def Assembled.untyped (a : Assembled) : Assembled :=
  ⟨a.sql, a.plan.untyped⟩

namespace Draft

/-- The draft of the plan without types. -/
def untyped (d : Draft) : Draft :=
  { d with plan := d.plan.untyped }

variable {s : Statement}

theorem addRowId_untyped (p : Plan) (name : String) :
    p.untyped.addRowId name = ((p.addRowId name).1, (p.addRowId name).2.untyped) := by
  have hrowIds : p.untyped.rowIds.idxOf? name = p.rowIds.idxOf? name := rfl
  unfold Plan.addRowId
  rw [hrowIds]
  cases p.rowIds.idxOf? name <;> rfl

theorem addColumn_untyped (p : Plan) (c : PlanColumn) :
    p.untyped.addColumn c.untyped = (p.addColumn c).untyped := by
  show Plan.mk _ _ (p.columns.map _ ++ [PlanColumn.untyped c]) _ = ⟨_, _, (_ ++ [c]).map _, _⟩
  rw [List.map_append]
  rfl

theorem rowId_untyped (d : Draft) (t : TableId) :
    d.untyped.rowId t = ((d.rowId t).1, (d.rowId t).2.untyped) := by
  have hplan := addRowId_untyped d.plan (rowIdName (tableAlias t))
  simp only [rowId, untyped, hplan]

theorem addTable_untyped (d : Draft) (m : MappedTable) :
    addTable s d.untyped m = (addTable s d m).untyped := by
  simp only [addTable, rowId_untyped]
  show (if _ then _ else _) = Draft.untyped (if _ then _ else _)
  rw [apply_ite Draft.untyped]
  rfl

theorem addWitness_untyped (level : Nat) (d : Draft) (t : TableId) :
    addWitness s level d.untyped t = (addWitness s level d t).untyped := by
  simp only [addWitness, rowId_untyped]
  rfl

theorem foldl_addWitness_untyped (level : Nat) (d : Draft) (ts : List TableId) :
    ts.foldl (addWitness s level) d.untyped = (ts.foldl (addWitness s level) d).untyped :=
  List.foldl_hom untyped (addWitness_untyped level)

theorem addOutput_untyped (d : Draft) (o : Output Cell) :
    addOutput s d.untyped o.untyped = (addOutput s d o).untyped := by
  simp only [addOutput, foldl_addWitness_untyped]
  exact congrArg (fun plan => Draft.mk plan _ _ _ _) (addColumn_untyped _ ⟨_, _, _, o.type⟩)

theorem ofTables_untyped (tables : List MappedTable) :
    (ofTables s tables).untyped = ofTables s tables :=
  (List.foldl_hom untyped (addTable_untyped (s := s))).symm

/-- **Types go to the plan only.** -/
theorem ofMapping_untyped (tables : List MappedTable) (outputs : List (Output Cell)) :
    ofMapping s tables (outputs.map Output.untyped) = (ofMapping s tables outputs).untyped := by
  have houtputs : outputs.foldl (fun d o => addOutput s d o.untyped) (ofTables s tables).untyped =
      (outputs.foldl (addOutput s) (ofTables s tables)).untyped :=
    List.foldl_hom untyped addOutput_untyped
  rw [ofTables_untyped] at houtputs
  rw [ofMapping, List.foldl_map]
  exact houtputs

end Draft

namespace Assembler

theorem checkAggregation_untyped (a : Assembler) (outputs : List (Output Cell))
    (tables : List MappedTable) :
    a.checkAggregation (outputs.map Output.untyped) tables = a.checkAggregation outputs tables := by
  simp only [checkAggregation, aggregatedTables, rowTables, List.flatMap_map]
  rfl

theorem isGrouped_untyped (outputs : List (Output Cell)) :
    isGrouped (outputs.map Output.untyped) = isGrouped outputs :=
  List.any_map

/-- **Types decide nothing but the types of the plan.** -/
theorem assemble_untyped (a : Assembler) (outputs : List (Output Cell))
    (tables : List MappedTable) :
    a.assemble (outputs.map Output.untyped) tables =
      Assembled.untyped <$> a.assemble outputs tables := by
  unfold assemble
  -- What is left of the draft besides its plan has no types, so the rest is the same.
  rw [checkAggregation_untyped, isGrouped_untyped, Draft.ofMapping_untyped]
  simp only [map_bind, map_pure, apply_ite (Functor.map Assembled.untyped)]
  rfl

end Assembler

/-! ### Marks of parameters -/

mutual

/-- A term is written with the marks of its parameters only. -/
theorem TermWriter.term_congr {p p' : Pool} (h : ∀ id, p'.isExpanded id = p.isExpanded id)
    (engine : Engine) (markers? : Option (List Marker)) :
    (t : Term) →
      TermWriter.term ⟨engine, p', markers?⟩ t = TermWriter.term ⟨engine, p, markers?⟩ t
  | .leaf _ => rfl
  | .binary op left right => by
    have hleft := term_congr h engine markers? left
    have hright := term_congr h engine markers? right
    cases op with
    | isIn =>
      -- The list is written as one parameter if this is marked, and this is all that is asked.
      rw [term, term, hleft, hright]
      unfold membership
      simp only [h]
    | comma => rw [term, term, hleft, hright]
    | _ =>
      exact congrArg₂ (fun l r => asOperand left l ++ [BinaryOp.chunk _] ++ asOperand right r) hleft
        hright
  | .wrap op operand => by
    have hoperand := term_congr h engine markers? operand
    cases op with
    | not | negate | apply _ => rw [term, term, hoperand]
    | aggregate function =>
      rw [term, term, hoperand]
      rfl
  | .cases bs otherwise => by
    rw [term, term, branches_congr h engine markers? bs, term_congr h engine markers? otherwise]
  | .casesOf subject bs otherwise => by
    rw [term, term, term_congr h engine markers? subject, branches_congr h engine markers? bs,
      term_congr h engine markers? otherwise]

theorem TermWriter.branches_congr {p p' : Pool} (h : ∀ id, p'.isExpanded id = p.isExpanded id)
    (engine : Engine) (markers? : Option (List Marker)) :
    (bs : List (Term × Term)) →
      TermWriter.branches ⟨engine, p', markers?⟩ bs = TermWriter.branches ⟨engine, p, markers?⟩ bs
  | [] => rfl
  | (test, value) :: rest => by
    rw [branches, branches, term_congr h engine markers? test, term_congr h engine markers? value,
      branches_congr h engine markers? rest]

end

namespace Assembler

variable {s : Statement} {engine : Engine} {p p' : Pool}
  (h : ∀ id, p'.isExpanded id = p.isExpanded id)

include h

theorem joinClauses_congr (kept : List TableId) (id : TableId) (js : List Join) :
    joinClauses ⟨s, p', engine⟩ kept id js = joinClauses ⟨s, p, engine⟩ kept id js := by
  induction js generalizing id with
  | nil => rfl
  | cons j js ih =>
    have hclause : joinClause ⟨s, p', engine⟩ id j = joinClause ⟨s, p, engine⟩ id j := by
      unfold joinClause writer
      simp only [TermWriter.term_congr h]
    rw [joinClauses, joinClauses, hclause, ih]

theorem sources_congr (kept : List TableId) :
    sources ⟨s, p', engine⟩ kept = sources ⟨s, p, engine⟩ kept := by
  unfold sources writer
  simp only [joinClauses_congr h, TermWriter.term_congr h]

theorem derivedRows_congr (kept : List TableId) (d : Draft) (keys : List ColumnRef)
    (ms : List Marker) :
    derivedRows ⟨s, p', engine⟩ kept d keys ms = derivedRows ⟨s, p, engine⟩ kept d keys ms := by
  unfold derivedRows
  rw [sources_congr h]
  rfl

theorem projection_congr (markers? : Option (List Marker)) (d : Draft) :
    projection ⟨engine, p', markers?⟩ d = projection ⟨engine, p, markers?⟩ d := by
  unfold projection
  simp only [TermWriter.term_congr h]
  rfl

theorem ordering_congr (markers? : Option (List Marker)) (d : Draft) :
    ordering ⟨s, p', engine⟩ ⟨engine, p', markers?⟩ d =
      ordering ⟨s, p, engine⟩ ⟨engine, p, markers?⟩ d := by
  unfold ordering
  simp only [TermWriter.term_congr h]
  rfl

/-- **Only the marks of parameters matter** for the statement and its plan. -/
theorem assemble_congr (outputs : List (Output Cell)) (tables : List MappedTable) :
    assemble ⟨s, p', engine⟩ outputs tables = assemble ⟨s, p, engine⟩ outputs tables := by
  unfold assemble writer
  simp only [sources_congr h, derivedRows_congr h, projection_congr h, ordering_congr h]
  rfl

end Assembler

end NestedQuery
