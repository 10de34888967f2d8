import NestedQuery.Proofs.Select.Lockstep
import NestedQuery.Proofs.Select.Sources

/-!
# Group keys

A grouped statement has one row for each combination of its keys. A key that an output reads
belongs to a table whose row number is selected, because the table is above the output's level or
a witness of it; a key that only an ordering reads need not. So the selected row numbers settle
the keys just if every ordering key reads tables whose row numbers are selected
(`groupKeys_settled_iff`). Otherwise rows with the same row numbers may end up in different groups.
-/

namespace NestedQuery

/-- A statement has a `GROUP BY` clause with these keys. -/
def Fragment.GroupsBy (f : Fragment) (keys : List ColumnRef) : Prop :=
  ∃ (w : TermWriter) (before after : Fragment),
    f = before ++ ([.token .group, .token .by_] ++ joined (keys.map w.column) .comma) ++ after

/-- A plan selects the row number of a table. -/
def Plan.SelectsRowId (p : Plan) (t : TableId) : Prop :=
  rowIdNameOf t ∈ p.rowIds

/-- Each ordering key reads only tables whose row numbers are selected. -/
def Stages.OrdersSelected (st : Stages) (p : Plan) : Prop :=
  ∀ key ∈ st.statement.order, ∀ c ∈ Term.columns key.1, p.SelectsRowId c.table

/-- Outside aggregates, a term reads all its columns row by row. -/
theorem Term.IsPlain.mem_rowColumns_iff {ids : List TableId} {t : Term}
    (h : Term.IsPlain ids t) {c : ColumnRef} :
    c ∈ Assembler.rowColumns t ↔ c ∈ Term.columns t := by
  rw [Draft.mem_rowColumns, Term.columns, List.mem_filterMap]
  constructor
  · rintro ⟨x, hx, -, hc⟩
    exact ⟨x.1, List.mem_map.mpr ⟨x, hx, rfl⟩, hc⟩
  · rintro ⟨leaf, hleaf, hc⟩
    obtain ⟨x, hx, rfl⟩ := List.mem_map.mp hleaf
    exact ⟨x, hx, h.not_beneath x hx, hc⟩

namespace Stages

variable {st : Stages} {c : ColumnRef} {t : TableId}

theorem draft_collects (st : Stages) :
    Draft.Collects st.compiled.tables st.outputs st.draft :=
  (Draft.ofMapping_collects st.statement st.compiled.tables st.outputs).1

theorem selectsRowId_iff : st.draft.plan.SelectsRowId t ↔ t ∈ st.draft.rowIdTables := by
  rw [Plan.SelectsRowId, st.draft_collects.rowIds]
  exact List.mem_map_of_injective fun _ _ => rowIdNameOf_injective

theorem mem_groupKeys_iff :
    c ∈ st.groupKeys ↔ (∃ o ∈ st.outputs, c ∈ Assembler.rowColumns o.value) ∨
      (∃ key ∈ st.statement.order, c ∈ Assembler.rowColumns key.1) ∨
      ∃ t ∈ st.draft.rowIdTables, rowIdRef t = c := by
  have houtputs : (st.draft.outputs.flatMap fun o => Assembler.rowColumns o.value) =
      st.outputs.flatMap fun o => Assembler.rowColumns o.value := by
    have hvalues := congrArg (List.flatMap Assembler.rowColumns) st.draft_collects.values
    rwa [List.flatMap_map, List.flatMap_map] at hvalues
  rw [groupKeys, Assembler.groupKeys, houtputs, List.mem_eraseDups, List.mem_append,
    List.mem_append, List.mem_flatMap, List.mem_flatMap, List.mem_map, or_assoc]
  rfl

theorem rowIdRef_mem_groupKeys (ht : t ∈ st.draft.rowIdTables) : rowIdRef t ∈ st.groupKeys :=
  mem_groupKeys_iff.mpr (Or.inr (Or.inr ⟨t, ht, rfl⟩))

/-- A grouped statement is grouped by the group keys. -/
theorem groupsBy_of_assemble {engine : Engine} {assembled : Assembled} {n n' : Nat}
    (h : ((st.assembler engine).assemble st.outputs st.compiled.tables).run n =
      .ok (assembled, n')) (hgrouped : Assembler.isGrouped st.outputs) :
    assembled.sql.GroupsBy st.groupKeys := by
  obtain ⟨-, -, markers, source, -, -, hsql⟩ := Assembler.assemble_run_eq_ok h
  have hkeys : (st.assembler engine).keysOf st.outputs st.draft = st.groupKeys := if_pos hgrouped
  generalize (st.assembler engine).outerWriter markers = w at hsql
  refine ⟨w, Assembler.projection w st.draft ++ [.token .from_] ++ source,
    (st.assembler engine).ordering w st.draft
      ++ (engine.paging st.statement.skip? st.statement.take?).getD [], ?_⟩
  rw [← Assembler.groupClause_of_isGrouped hgrouped, ← hkeys, ← List.append_assoc]
  exact hsql

/-- What an ordering key reads is kept. -/
theorem table_mem_kept_of_order (hst : st.IsChecked) {key : Term × Direction}
    (hkey : key ∈ st.statement.order) (hc : c ∈ Term.columns key.1) : c.table ∈ st.kept := by
  have hplain := hst.statement.order key hkey
  have hneeded := Term.table_mem_neededTables hc
  exact Statement.mem_kept_iff.mpr (.clause (hplain.isOf.mem_of_mem_neededTables hneeded)
    (List.mem_append_right _ (List.mem_flatMap.mpr ⟨key, hkey, hneeded⟩)))

/-- If the ordering keys do, all keys belong to tables whose row numbers are selected. -/
theorem table_mem_rowIdTables (hst : st.IsChecked)
    (horder : ∀ key ∈ st.statement.order, ∀ c ∈ Term.columns key.1,
      c.table ∈ st.draft.rowIdTables) (hc : c ∈ st.groupKeys) :
    c.table ∈ st.draft.rowIdTables := by
  rcases mem_groupKeys_iff.mp hc with ⟨o, ho, hc⟩ | ⟨key, hkey, hc⟩ | ⟨t, ht, rfl⟩
  · exact st.draft_collects.mem_rowIdTables_of_mem_rowColumns ho (hst.outputs o ho) hc
  · exact horder key hkey c ((hst.statement.order key hkey).mem_rowColumns_iff.mp hc)
  · exact ht

/-- The joined rows with the same selected row numbers have the same keys. -/
def GroupsSettled (st : Stages) (p : Plan) : Prop :=
  ∀ db : Database st.statement, ∀ ρ ∈ db.selectedRows st.kept, ∀ ρ' ∈ db.selectedRows st.kept,
    (∀ t, p.SelectsRowId t → ρ t = ρ' t) → ∀ c ∈ st.groupKeys, db.value c ρ = db.value c ρ'

/-- A table of an ordering key whose row number is not selected tells joined rows apart that have
the same selected row numbers. -/
theorem ordersSelected_of_groupsSettled (hst : st.IsChecked)
    (h : st.GroupsSettled st.draft.plan) : st.OrdersSelected st.draft.plan := by
  intro key hkey c hc
  rw [selectsRowId_iff]
  by_contra hnot
  have hkept := table_mem_kept_of_order hst hkey hc
  have hclosed := isClosed_kept hst
  have hmem : c ∈ st.groupKeys := mem_groupKeys_iff.mpr
    (Or.inr (Or.inl ⟨key, hkey, (hst.statement.order key hkey).mem_rowColumns_iff.mpr hc⟩))
  -- Only the tables whose row numbers are selected have one row; all others are in step.
  have hvalue := h (Database.lockstep st.statement st.draft.rowIdTables) _
    (Database.stepRow_mem_selectedRows hclosed (Or.inl rfl)) _
    (Database.stepRow_mem_selectedRows hclosed (Or.inr rfl))
    (fun t ht => Database.stepRow_eq_stepRow (fun _ => selectsRowId_iff.mp ht) 0 1) c hmem
  have hrows := Database.lockstep_cell_injective hvalue
  rw [Database.stepRow_of_mem hkept hnot, Database.stepRow_of_mem hkept hnot] at hrows
  exact absurd (Option.some.inj hrows) Nat.zero_ne_one

theorem groupsSettled_of_ordersSelected (hst : st.IsChecked)
    (h : st.OrdersSelected st.draft.plan) : st.GroupsSettled st.draft.plan := by
  intro db ρ _ ρ' _ hagree c hc
  have htable := table_mem_rowIdTables hst
    (fun key hkey c hc => selectsRowId_iff.mp (h key hkey c hc)) hc
  rw [Database.value, Database.value, hagree c.table (selectsRowId_iff.mpr htable)]

end Stages

/-- **When the selected row numbers settle the groups.** The rows of a grouped statement are
grouped by `Stages.groupKeys`. Each of these belongs to a table whose row number is a key too and
is selected, just if each ordering key reads only such tables; and just then, whatever the tables
hold, joined rows with the same selected row numbers are in the same group. What the tables hold is
a `Database`: its conditions are any that read the tables of the statement's own. -/
theorem groupKeys_settled_iff {settings : Settings} {q : QuerySpec} {mapping : Expr}
    {query : Query} {n n' : Nat} (h : (q.compile settings mapping).run n = .ok (query, n')) :
    ∃ st, q.stages settings.naming mapping = .ok st ∧ (Assembler.isGrouped st.outputs →
      query.sql.GroupsBy st.groupKeys ∧
      ((∀ c ∈ st.groupKeys, rowIdRef c.table ∈ st.groupKeys ∧ query.plan.SelectsRowId c.table) ↔
        st.OrdersSelected query.plan) ∧
      (st.GroupsSettled query.plan ↔ st.OrdersSelected query.plan)) := by
  obtain ⟨st, assembled, hst, hassembled, rfl⟩ := QuerySpec.compile_run_eq_ok_iff.mp h
  have hchecked := Stages.isChecked_of_stages hst
  have hplan : assembled.plan = st.draft.plan :=
    (Assembler.assemble_run_eq_ok hassembled).2.1
  refine ⟨st, hst, fun hgrouped => ⟨?_, ?_, ?_⟩⟩
  · exact Stages.groupsBy_of_assemble hassembled hgrouped
  · show (∀ c ∈ st.groupKeys, _ ∧ assembled.plan.SelectsRowId c.table) ↔
      st.OrdersSelected assembled.plan
    rw [hplan]
    -- The ordering is the only clause that may read tables without a selected row number.
    constructor
    · intro hall key hkey c hc
      exact (hall c (Stages.mem_groupKeys_iff.mpr (Or.inr (Or.inl ⟨key, hkey,
        (hchecked.statement.order key hkey).mem_rowColumns_iff.mpr hc⟩)))).2
    · intro horder c hc
      have htable := Stages.table_mem_rowIdTables hchecked
        (fun key hkey c hc => Stages.selectsRowId_iff.mp (horder key hkey c hc)) hc
      exact ⟨Stages.rowIdRef_mem_groupKeys htable, Stages.selectsRowId_iff.mpr htable⟩
  · show st.GroupsSettled assembled.plan ↔ st.OrdersSelected assembled.plan
    rw [hplan]
    exact ⟨Stages.ordersSelected_of_groupsSettled hchecked,
      Stages.groupsSettled_of_ordersSelected hchecked⟩

/-- People, by the titles of their classes. -/
def peopleByTitle : QuerySpec :=
  { people with order := [(shapeField "classes" "title", .asc)] }

/-- Each person's name and number of classes. -/
def countedClasses : Expr :=
  .object [("name", shapeField "person" "name"),
    ("count", .aggregate .count (.member .row "classes"))]

/-- The classes of a person are counted by title, because the ordering reads the titles: nothing
selects the row numbers of classes. -/
theorem groupKeys_settled_iff_peopleByTitle :
    ∃ query n' st, (peopleByTitle.compile {} countedClasses).run 0 = .ok (query, n') ∧
      peopleByTitle.stages .snakeCase countedClasses = .ok st ∧
      (∃ c ∈ st.groupKeys,
        ¬ (rowIdRef c.table ∈ st.groupKeys ∧ query.plan.SelectsRowId c.table)) ∧
      ¬ st.GroupsSettled query.plan := by
  have hrun : ((peopleByTitle.compile {} countedClasses).run 0).any
      (fun x => x.1.plan.rowIds == ["t0.##rowid"]) = true := by decide +kernel
  have htitle : (peopleByTitle.stages .snakeCase countedClasses).any
      (fun st => Assembler.isGrouped st.outputs && st.statement.order.any fun key =>
        (Term.columns key.1).any fun c => c.table == 1) = true := by decide +kernel
  obtain ⟨⟨query, n'⟩, hquery, hrowIds⟩ := Result.any_eq_true_iff.mp hrun
  obtain ⟨st', hst', horder⟩ := Result.any_eq_true_iff.mp htitle
  obtain ⟨st, hst, hiff⟩ := groupKeys_settled_iff hquery
  obtain rfl : st' = st := Except.ok.inj (hst'.symm.trans hst)
  rw [Bool.and_eq_true, List.any_eq_true] at horder
  obtain ⟨hgrouped, key, hkey, hany⟩ := horder
  obtain ⟨c, hc, htable⟩ := List.any_eq_true.mp hany
  rw [beq_iff_eq] at htable hrowIds
  -- The ordering reads the title of a class, whose row number is not selected.
  have hnot : ¬ st'.OrdersSelected query.plan := fun hall => by
    have hselects := hall key hkey c hc
    rw [Plan.SelectsRowId, hrowIds, htable] at hselects
    exact absurd hselects (by decide)
  obtain ⟨-, hkeys, hsettled⟩ := hiff hgrouped
  refine ⟨query, n', st', hquery, hst', ?_, fun hall => hnot (hsettled.mp hall)⟩
  by_contra hnone
  refine hnot (hkeys.mp fun c hc => ?_)
  by_contra hcovered
  exact hnone ⟨c, hc, hcovered⟩

end NestedQuery
