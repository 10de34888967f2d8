import NestedQuery.Proofs.Graph.Flat
import NestedQuery.Proofs.Mapping.Constructions
import NestedQuery.Proofs.Select.Layout

/-!
# Documents in the shape of their mapping

A mapping that puts values of the primary table together has one column for each of these values,
and every document is put together from the cells of one row (`documents_of_construction`). What a
construction without values leaves behind is nothing at all: the document has the shape of the
mapping just if no tuple, array or object in it is empty, or the mapping is the object without
members.
-/

namespace NestedQuery

/-- A plan without mapped tables has one level, and each column lands where its output does. -/
theorem Draft.flat_of_no_tables (s : Statement) (os : List (Output Cell)) :
    (ofMapping s [] os).plan.levels.length = 1 ∧
      (ofMapping s [] os).plan.columns.map PlanColumn.target = os.map Output.target := by
  have hplaced := ofMapping_isPlaced s [] os
  have hformed := (ofMapping_isGuarded s [] os).built.wellFormed
  have hlength : (ofMapping s [] os).plan.levels.length = 1 := by
    refine Nat.le_antisymm (Nat.le_of_not_lt fun hlt => ?_) hformed.levels_pos
    -- A second level would be that of a mapped table.
    have hlevel := List.getElem?_eq_getElem hlt
    have hparent : ((ofMapping s [] os).plan.levels[1]).parent? ≠ none := fun hnone =>
      absurd ((hformed.parent_eq_none_iff 1 _ hlevel).mp hnone) Nat.one_ne_zero
    obtain ⟨place, -, hstands⟩ := exists_mem_of_forall₂ hplaced.levels (List.getElem_mem hlt)
    obtain ⟨m, hm, -⟩ := hstands.mapped (Option.isSome_iff_ne_none.mpr hparent)
    exact absurd hm List.not_mem_nil
  refine ⟨hlength, ?_⟩
  obtain ⟨root, hroot, htarget⟩ := hplaced.root
  have hplaces : (ofMapping s [] os).places = [root] := by
    obtain ⟨p, hp⟩ := List.length_eq_one_iff.mp (hplaced.levels.length_eq.trans hlength)
    rw [hp] at hroot ⊢
    rw [List.mem_singleton.mp hroot]
  rw [eq_comm, ← List.forall₂_eq_eq_eq, List.forall₂_map_left_iff, List.forall₂_map_right_iff]
  refine hplaced.columns.imp fun o c ⟨_, place, hplace, hbelow, _⟩ => ?_
  have hmem := List.mem_of_getElem? hplace
  rw [hplaces, List.mem_singleton] at hmem
  rw [hbelow, hmem, htarget, List.nil_append]

/-- Resolving moves no output. -/
theorem QuerySpec.targets_of_resolveOutputs {r : Resolver} {outputs : List (Output Symbol)}
    {resolved : List (Output Cell)} (h : resolveOutputs r outputs = .ok resolved) :
    resolved.map Output.target = outputs.map Output.target := by
  rw [eq_comm, ← List.forall₂_eq_eq_eq, List.forall₂_map_left_iff, List.forall₂_map_right_iff]
  refine (Result.mapM_eq_ok_iff.mp h).imp fun o o' ho => ?_
  obtain ⟨t, -, ho⟩ := Result.bind_eq_ok_iff.mp ho
  rw [← Result.pure_eq_ok_iff.mp ho]

/-- **What documents have the shape of their mapping.** The mapping puts values together, under
different names within each object. Then there is one output for each of the values, in order, which
is what that value compiles to; its column lands at the target where the value stands. There is one
document for each row number of the primary table. It is the construction, without parts that have
no values, filled with the cells of the first row with this number. So the documents have the
mapping's shape just if no tuple, array or object in it is empty, or the mapping is the object
without members; then nothing is left out. -/
theorem QuerySpec.documents_of_construction {settings : Settings} {q : QuerySpec} {mapping : Expr}
    {query : Query} {n n' : Nat} {st : Stages} {rows : List Row} {g : Graph}
    (hst : q.stages settings.naming mapping = .ok st)
    (h : (q.compile settings mapping).run n = .ok (query, n'))
    (hnames : mapping.hasDistinctNames = true)
    (hvalues : ∀ leaf ∈ mapping.construction.leaves, leaf.2.IsValue st.statement)
    (hrows : Yields (rows.forM (Graph.push query.plan)) {} () g) :
    let c := mapping.construction
    query.plan = st.draft.plan ∧
      List.Forall₂ (IsOutputOf st.statement) c.leaves st.compiled.outputs ∧
      query.plan.columns.map PlanColumn.target = c.leaves.map Prod.fst ∧
      List.Forall₂ (fun id d => ∃ r, query.plan.firstRow? (Row.aligned rows) 0 [id] = some r ∧
          d = c.pruned.document (query.plan.valueAt r))
        (query.plan.idsBelow (Row.aligned rows) 0 []) (g.finish query.plan) ∧
      (∀ d ∈ g.finish query.plan,
        (∃ values, d = c.document values) ↔ (c.isFull || c.isEmptyObject) = true) ∧
      ((c.isFull || c.isEmptyObject) = true → c.pruned = c) := by
  obtain ⟨st', assembled, hst', hassembled, rfl⟩ := QuerySpec.compile_run_eq_ok_iff.mp h
  obtain rfl := Except.ok.inj (hst.symm.trans hst')
  obtain ⟨p, bindings, -, hcompiled, houtputs⟩ := QuerySpec.stages_eq_ok_iff.mp hst
  have hplan : assembled.plan = st.draft.plan := (Assembler.assemble_run_eq_ok hassembled).2.1
  obtain ⟨htables, hcovers⟩ := outputs_of_compileMapping mapping hvalues hcompiled
  have hordered := Expr.isOrdered_construction mapping hnames
  -- A mapping of values alone iterates no table, so there is one level only.
  have hflat := Draft.flat_of_no_tables st.statement st.outputs
  rw [← htables] at hflat
  have htargets : assembled.plan.columns.map PlanColumn.target =
      mapping.construction.leaves.map Prod.fst := by
    rw [hplan, Stages.draft, hflat.2, QuerySpec.targets_of_resolveOutputs houtputs,
      ← List.forall₂_eq_eq_eq, List.forall₂_map_left_iff, List.forall₂_map_right_iff]
    exact hcovers.flip.imp fun o leaf ho => ho.1
  have hnodup : (assembled.plan.columns.map PlanColumn.target).Nodup :=
    htargets ▸ hordered.nodup_targets
  have hformed : assembled.plan.WellFormed :=
    hplan ▸ (Draft.ofMapping_isGuarded st.statement _ st.outputs).built.wellFormed
  have hdocuments := Graph.finish_of_flat hformed (hplan ▸ hflat.1) hnodup hrows
  have hpruned := hdocuments.imp (fun id d ⟨r, hr, hd⟩ => by
    rw [htargets, List.map_map] at hd
    exact (⟨r, hr, hd.trans (Construction.toDocument_insertAll_leaves hordered _)⟩ :
      ∃ r, assembled.plan.firstRow? (Row.aligned rows) 0 [id] = some r ∧
        d = mapping.construction.pruned.document (assembled.plan.valueAt r)))
  refine ⟨hplan, hcovers, htargets, hpruned, fun d hd => ?_,
    (Construction.pruned_eq_self_iff _).mpr⟩
  obtain ⟨id, -, r, -, rfl⟩ := exists_mem_of_forall₂ hpruned hd
  exact Construction.exists_document_pruned_eq_iff _ _

/-- Each person's name and number, with an empty array between them. -/
def spacedPeople : Expr :=
  .tuple [shapeField "person" "name", .array [], shapeField "person" "id"]

/-- The row of a person. -/
def spacedRow : Row :=
  ⟨["#0", "#2", "t0.##rowid"], [.text "Ann", .integer 7, .integer 1]⟩

/-- The plan for such rows. -/
def spacedPlan : Plan :=
  ((Plan.root "t0.##rowid" "person").addColumn ⟨"#0", 0, [.arg 0], .text⟩).addColumn
    ⟨"#2", 0, [.arg 2], .integer⟩

/-- The document has two items, while the mapping has three. -/
theorem documents_of_construction_spacedPeople :
    ∃ query n' g, (people.compile {} spacedPeople).run 0 = .ok (query, n') ∧
      Yields ([spacedRow].forM (Graph.push query.plan)) {} () g ∧
      g.finish query.plan = [.array [.text "Ann", .integer 7]] ∧
      ∀ d ∈ g.finish query.plan, ¬ ∃ values, d = spacedPeople.construction.document values := by
  have hcompile : ((people.compile {} spacedPeople).run 0).any (fun x => x.1.plan == spacedPlan) =
      true := by decide +kernel
  have hstages : (people.stages .snakeCase spacedPeople).any (fun st =>
      !st.statement.isWhole ["person", "name"] && !st.statement.isWhole ["person", "id"]) =
      true := by decide +kernel
  obtain ⟨⟨query, n'⟩, hquery, hplan⟩ := Result.any_eq_true_iff.mp hcompile
  have hplan : query.plan = spacedPlan := beq_iff_eq.mp hplan
  obtain ⟨st, hst, hwhole⟩ := Result.any_eq_true_iff.mp hstages
  rw [Bool.and_eq_true, Bool.not_eq_true', Bool.not_eq_true'] at hwhole
  have hvalues : ∀ leaf ∈ spacedPeople.construction.leaves, leaf.2.IsValue st.statement := by
    intro leaf hleaf
    rcases List.mem_cons.mp hleaf with rfl | hleaf
    · exact (Expr.IsScalar.column rfl hwhole.1).isValue
    · rw [List.mem_singleton.mp hleaf]
      exact (Expr.IsScalar.column rfl hwhole.2).isValue
  obtain ⟨g, hrows⟩ : ∃ g, Yields ([spacedRow].forM (Graph.push query.plan)) {} () g := by
    rw [hplan]
    exact ⟨_, Prod.ext rfl rfl⟩
  obtain ⟨-, -, -, hdocuments, hshape, -⟩ :=
    QuerySpec.documents_of_construction hst hquery (by decide) hvalues hrows
  refine ⟨query, n', g, hquery, hrows, ?_, fun d hd => mt (hshape d hd).mp (by decide)⟩
  -- The one row has the row number 1.
  have hids : query.plan.idsBelow (Row.aligned [spacedRow]) 0 [] = [1] := by
    rw [hplan]
    decide
  rw [hids] at hdocuments
  obtain ⟨d, ds, ⟨r, hr, hd⟩, hnone, heq⟩ := List.forall₂_cons_left_iff.mp hdocuments
  rw [heq, List.forall₂_nil_left_iff.mp hnone, hd]
  rw [hplan] at hr ⊢
  obtain rfl := Option.some.inj hr
  rfl

end NestedQuery
