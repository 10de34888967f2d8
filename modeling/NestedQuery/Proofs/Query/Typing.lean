import NestedQuery.Proofs.Mapping.Typing
import NestedQuery.Proofs.Query.Stages
import NestedQuery.Proofs.Select.Layout

/-!
# The column of a scalar mapping

A query whose mapping is a scalar expression selects one value, and its plan has one column for it,
of the inferred type (`QuerySpec.exists_column_of_compile`). So what the mapping computes for a row
converts to the type of the column (`QuerySpec.converts_of_compile`).
-/

namespace NestedQuery

open Compile

variable {s : Statement} {mapping : Expr}

/-- A scalar mapping is compiled to one value of its inferred type. -/
theorem compileMapping_yields_ofValue (he : mapping.IsScalar s) {c c' : Collected} {r : Compiled}
    (hc : Grounded c.bindings) (h : Yields (compileMapping s mapping) c r c') :
    ∃ v tables, r = .ofValue v (mapping.inferredType s) tables := by
  obtain ⟨r', c₁, hr, h⟩ := yields_bind_iff.mp h
  -- The result is no whole table or shape, so there is nothing to expand.
  obtain ⟨w?, c₂, hw, h⟩ := yields_bind_iff.mp h
  obtain rfl := whole?_yields_none hw (he.preserves.1 _ _ _ _ hr).chain
  obtain ⟨rfl, -⟩ := yields_pure_iff.mp h
  have hinfers : Infers s [] mapping :=
    infers_of_isScalar mapping (mapping.inline_nil.symm ▸ he)
  obtain ⟨v, type, tables, rfl, rfl⟩ := hinfers _ _ _ _ hc (.outermost _) hr
  exact ⟨v, tables, by rw [mapping.inline_nil]⟩

namespace QuerySpec

variable {settings : Settings} {q : QuerySpec} {query : Query} {n n' : Nat} {p : Pool}

/-- **The plan of a scalar mapping has one column**, of the inferred type. -/
theorem exists_column_of_compile (hs : q.statement settings.naming {} = .ok (s, p))
    (he : mapping.IsScalar s) (h : (q.compile settings mapping).run n = .ok (query, n')) :
    ∃ column, query.plan.columns = [column] ∧ column.type = mapping.inferredType s := by
  obtain ⟨st, assembled, hstages, hassemble, rfl⟩ := compile_run_eq_ok_iff.mp h
  obtain ⟨p', bindings, hs', hcompiled, houtputs⟩ := stages_eq_ok_iff.mp hstages
  obtain ⟨rfl, rfl⟩ := Prod.mk.inj (Except.ok.inj (hs'.symm.trans hs))
  obtain ⟨v, tables, hvalue⟩ := compileMapping_yields_ofValue he Grounded.nil hcompiled
  -- One output is compiled, so one is resolved, and one lands in the plan.
  have hresolved := Result.mapM_eq_ok_iff.mp houtputs
  rw [hvalue] at hresolved
  obtain ⟨o, os, ho, hos, hone⟩ := List.forall₂_cons_left_iff.mp hresolved
  obtain rfl := List.forall₂_nil_left_iff.mp hos
  obtain ⟨t, -, hoeq⟩ := Result.bind_eq_ok_iff.mp ho
  have hlands := (Draft.ofMapping_isPlaced st.statement st.compiled.tables st.outputs).columns
  rw [hone] at hlands
  obtain ⟨column, columns, hcolumn, hcolumns, hplan⟩ := List.forall₂_cons_left_iff.mp hlands
  obtain rfl := List.forall₂_nil_left_iff.mp hcolumns
  refine ⟨column, ?_, hcolumn.1.trans ?_⟩
  · rw [(Assembler.assemble_run_eq_ok hassemble).2.1, hone]
    exact hplan
  · rw [← Result.pure_eq_ok_iff.mp hoeq]

/-- **What a scalar mapping computes converts to the type of its column**, if the row has values of
the declared types and the parts of the mapping go along with its type. -/
theorem converts_of_compile (hs : q.statement settings.naming {} = .ok (s, p))
    (he : mapping.IsScalar s) (h : (q.compile settings mapping).run n = .ok (query, n')) :
    ∃ column, query.plan.columns = [column] ∧ ∀ arguments row,
      (∀ path, (row path).hasType (s.typeOf path) = true) →
        mapping.KeepsTypes s arguments row →
          ∀ v, (mapping.onRow row).evaluate arguments = .ok v → v.isPlain = true →
            ∃ d, Value.convert column.type v = .ok d := by
  obtain ⟨column, hcolumns, htype⟩ := exists_column_of_compile hs he h
  refine ⟨column, hcolumns, fun arguments row hrow hkeeps v hv hplain => ?_⟩
  rw [htype]
  exact Value.exists_convert_eq_ok (hkeeps.hasType hrow (congrArg Except.toOption hv)) hplain

end QuerySpec

end NestedQuery
