import NestedQuery.Proofs.Mapping.Folding
import NestedQuery.Proofs.Mapping.Wholes

/-!
# Row ids of leaves

An expression compiles to accumulators in several ways: its outputs, in a scope or expanded there,
and the value of a condition (`Expr.CompilesTo`). In all of them a column is marked with a table
just if it lies beneath an aggregate. Resolution governs it by the row id of that table, and a
column without a mark by the one of the table that it is read from (`marks_match_tree`).
-/

namespace NestedQuery

open Compile

/-- The accumulators that an expression compiles to over a statement. -/
inductive Expr.CompilesTo (s : Statement) (e : Expr) : Accumulator Symbol → Prop
  /-- An output, in a scope of the statement. -/
  | output {scope : Scope} {c c' : Collected} {r : Compiled} {o : Output Symbol} :
    scope.table ∈ s.tableIds → Yields (compile s scope e) c r c' → o ∈ r.outputs →
      CompilesTo s e o.value
  /-- An output where a whole table or shape is expanded. -/
  | expanded {scope : Scope} {c c' : Collected} {r : Compiled} {o : Output Symbol} :
    scope.table ∈ s.tableIds → Yields (compileValue s scope e) c r c' → o ∈ r.outputs →
      CompilesTo s e o.value
  /-- A condition or an ordering key. -/
  | condition {c c' : Collected} {v : Accumulator Symbol} :
    Yields (compileCondition s e) c v c' → CompilesTo s e v

/-- Whatever all constructions of the compiler keep. -/
theorem ClosedValues.of_compilesTo {s : Statement} {V : Accumulator Symbol → Prop}
    (hV : ClosedValues s V) {e : Expr} {v : Accumulator Symbol} (h : e.CompilesTo s v) : V v := by
  cases h with
  | output hscope h ho => exact (compile_keeps hV e hscope h).values _ ho
  | expanded hscope h ho =>
    obtain ⟨c, _, hc, h⟩ := yields_bind_iff.mp h
    exact (expandWhole_keeps hV (compile_keeps hV e hscope hc) h).values _ ho
  | condition h => exact (compileCondition_keeps hV h).1

/-- A resolved column comes from a column leaf, which says what governs it. -/
theorem Resolver.exists_of_resolve_eq_column {r : Resolver} {a : Symbol} {column rowId : ColumnRef}
    {function : Option Function} {type : ValueType}
    (h : r.resolve a = .ok (.column column rowId function type)) :
    ∃ root path into, a = .column root path into function ∧
      rowId = rowIdRef (into.getD column.table) := by
  cases a with
  | param id => cases h
  | column root path into function' =>
    rw [resolve, Result.bind_eq_ok_iff] at h
    obtain ⟨path', -, h⟩ := h
    obtain ⟨⟨column', type'⟩, -, h⟩ := Result.bind_eq_ok_iff.mp h
    obtain ⟨rfl, rfl, rfl, -⟩ := Cell.column.inj (Result.pure_eq_ok_iff.mp h)
    exact ⟨root, path, into, rfl, rfl⟩

/-- **Marks match the tree.** A column carries the table that it is folded into just if it lies
beneath an aggregate. After resolution a column outside aggregates is governed by the row id of the
table that it is read from, and one beneath by the row id of the table that it carries. -/
theorem marks_match_tree {s : Statement} {e : Expr} {v : Accumulator Symbol}
    (h : e.CompilesTo s v) :
    (∀ root path into function beneath,
      (Symbol.column root path into function, beneath) ∈ v.visit →
        (into.isSome = true ↔ beneath = true)) ∧
    ∀ naming bindings t, Resolver.resolveTree ⟨s, naming, bindings⟩ v = .ok t →
      ∀ column rowId function type beneath,
        (Cell.column column rowId function type, beneath) ∈ t.visit →
        (beneath = false → rowId = rowIdRef column.table) ∧
        (beneath = true → ∃ root path table, table ∈ s.tableIds ∧
          (Symbol.column root path (some table) function, true) ∈ v.visit ∧
          rowId = rowIdRef table) := by
  have hfolded : FoldedBeneath s v := (closedValues_foldedBeneath s).of_compilesTo h
  have hmark : ∀ root path into function beneath,
      (Symbol.column root path into function, beneath) ∈ v.visit →
        (into.isSome = true ↔ beneath = true) :=
    fun _ _ _ _ _ hx => (hfolded _ hx).1 rfl
  refine ⟨hmark, fun naming bindings t ht column rowId function type beneath hy => ?_⟩
  -- Resolution keeps the shape of the tree, so the column was beneath an aggregate before, too.
  obtain ⟨⟨a, beneath'⟩, hx, hresolve, rfl⟩ :=
    exists_mem_of_forall₂ (Accumulator.visitFrom_of_traverse false v ht) hy
  obtain ⟨root, path, into, rfl, rfl⟩ := Resolver.exists_of_resolve_eq_column hresolve
  have hinto := hmark _ _ _ _ _ hx
  cases into with
  | none => exact ⟨fun _ => rfl, fun hbeneath => absurd (hinto.mpr hbeneath) Bool.false_ne_true⟩
  | some table =>
    obtain rfl := hinto.mp rfl
    have htable := (hfolded _ hx).2 table rfl
    exact ⟨Bool.noConfusion, fun _ => ⟨root, path, table, htable, hx, rfl⟩⟩

/-- The names of those with many points, and a word for the others. -/
def diligentName : Expr :=
  .conditional
    (.binary .gt
      (.aggregate .sum (.select (.member .row "grades") "g" (.member (.var "g") "points")))
      (.constant (.integer 10)))
    (.member (.member .row "person") "name") (.constant (.text "someone"))

/-- The points are read from the grades and governed by the row id of the person; the name is
governed by that of its own table. -/
theorem marks_match_tree_diligentName :
    ∃ v t, diligentName.CompilesTo school v ∧
      Resolver.resolveTree ⟨school, .verbatim, [⟨.row, ["grades"]⟩]⟩ v = .ok t ∧
      (Symbol.column (.binding 0) ["points"] (some 0) none, true) ∈ v.visit ∧
      (Cell.column ⟨2, tableAlias 2, "points"⟩ (rowIdRef 0) none .integer, true) ∈ t.visit ∧
      ∀ column rowId function type,
        (Cell.column column rowId function type, false) ∈ t.visit →
          rowId = rowIdRef column.table := by
  have hrun : Yields (compileValue school .outermost diligentName) {}
      ⟨[⟨.cases [(.binary .gt
          (.wrap (.aggregate .sum) (.leaf (.column (.binding 0) ["points"] (some 0) none)))
          (.leaf (.param 0)), chainLeaf .row ["person", "name"])] (.leaf (.param 1)), [], .text⟩],
        [⟨2, [], true, false⟩]⟩ _ := Prod.ext rfl rfl
  have hcompiles :=
    Expr.CompilesTo.expanded school.zero_mem_tableIds hrun (List.mem_singleton_self _)
  obtain ⟨-, hgoverned⟩ := marks_match_tree hcompiles
  refine ⟨_, _, hcompiles, rfl, ?_, ?_, fun column rowId function type hmem => ?_⟩
  · exact .head _
  · exact .head _
  · exact (hgoverned .verbatim [⟨.row, ["grades"]⟩] _ rfl _ _ _ _ _ hmem).1 rfl

end NestedQuery
