import NestedQuery.Proofs.Accumulator.Classification
import NestedQuery.Proofs.Select.GroupKeys
import NestedQuery.Proofs.Select.Lineage
import NestedQuery.Proofs.Select.Separation

/-!
# Aggregates of a query

Every aggregate of an accepted query is a `Folding` of its statement: the statement reads from the
kept tables, it is grouped by the group keys, and the lineage names the chains of the level that
the aggregate belongs to. So an aggregate is exact just if it is separated from the keys
(`aggregates_exact_iff`). An element selected next to it that is joined through what it reads is
not separated from it, and changes its value.

To be exact is a matter of the rows of the tables that the aggregate reads, and a `COUNT` of a
constant reads none. It is separated and exact, but this says nothing of its value: it counts the
joined rows of its group, and these may be fewer than those of the element.
-/

namespace NestedQuery

theorem mem_insertTable {t u : TableId} {ts : List TableId} :
    u ∈ insertTable t ts ↔ u = t ∨ u ∈ ts := by
  induction ts with
  | nil => rw [insertTable, List.mem_cons]
  | cons v ts ih =>
    rw [insertTable]
    split
    · rw [List.mem_cons]
    · split
      · rename_i htv
        rw [htv, List.mem_cons, ← or_assoc, or_self]
      · rw [List.mem_cons, ih, List.mem_cons, or_left_comm]

theorem Term.mem_readTables_iff {x : Term} {t : TableId} :
    t ∈ Term.readTables x ↔ ∃ c ∈ Term.columns x, c.table = t := by
  rw [Term.readTables]
  induction Term.columns x with
  | nil => exact ⟨fun h => absurd h List.not_mem_nil, fun ⟨_, h, _⟩ => absurd h List.not_mem_nil⟩
  | cons c cs ih =>
    rw [List.foldr_cons, mem_insertTable, ih, eq_comm]
    simp only [List.mem_cons, or_and_right, exists_or, exists_eq_left]

/-- The tables that an aggregate reads are needed by the value that it is part of. -/
theorem Term.readTables_subset_of_mem_aggregates {value : Term} {x : Aggregate × Term}
    (hx : x ∈ value.aggregates) : Term.readTables x.2 ⊆ Term.neededTables value := by
  intro t ht
  obtain ⟨c, hc, rfl⟩ := Term.mem_readTables_iff.mp ht
  obtain ⟨leaf, hleaf, hcolumn⟩ := List.mem_filterMap.mp hc
  have hmem := Accumulator.leaves_subset_of_mem_aggregates value x hx hleaf
  exact List.mem_flatMap.mpr ⟨leaf, hmem, Cell.table_mem_tables hcolumn⟩

namespace Stages

variable {st : Stages} {t : TableId}

theorem mem_kept_of_mem_outputs (hst : st.IsChecked) {o : Output Cell} (ho : o ∈ st.outputs)
    (ht : t ∈ Term.neededTables o.value) : t ∈ st.kept :=
  (mem_kept_iff_requires hst).mpr
    (.output ho ((hst.outputs o ho).mem_of_mem_neededTables ht) ht)

/-- Row numbers are selected of kept tables only. -/
theorem mem_kept_of_mem_rowIdTables (hst : st.IsChecked) (ht : t ∈ st.draft.rowIdTables) :
    t ∈ st.kept := by
  have hcollects := st.draft_collects
  rcases hcollects.registered t ht with ⟨p, hp, rfl⟩ | hwitness
  · rcases hcollects.mapped p hp with hzero | ⟨m, hm, hrows, htable⟩
    · rw [hzero]
      exact (mem_kept_iff_requires hst).mpr (.fixed st.statement.zero_mem_tableIds rfl)
    · exact htable ▸ (mem_kept_iff_requires hst).mpr (.iterated hm hrows)
  · obtain ⟨o, ho, hneeded⟩ := hcollects.witnesses t hwitness
    exact mem_kept_of_mem_outputs hst ho hneeded

theorem table_mem_kept_of_mem_groupKeys (hst : st.IsChecked) {c : ColumnRef}
    (hc : c ∈ st.groupKeys) : c.table ∈ st.kept := by
  rcases mem_groupKeys_iff.mp hc with ⟨o, ho, hc⟩ | ⟨key, hkey, hc⟩ | ⟨t, ht, rfl⟩
  · obtain ⟨x, hx, -, hcolumn⟩ := Draft.mem_rowColumns.mp hc
    exact mem_kept_of_mem_outputs hst ho
      (Draft.mem_neededTables_of_mem_visit hx (Cell.table_mem_tables hcolumn))
  · exact table_mem_kept_of_order hst hkey
      ((hst.statement.order key hkey).mem_rowColumns_iff.mp hc)
  · exact mem_kept_of_mem_rowIdTables hst ht

/-- An aggregate of an output that is put at a level. -/
def folding (hst : st.IsChecked) {o : Output Cell} (ho : o ∈ st.outputs) (level : Nat)
    {x : Aggregate × Term} (hx : x ∈ o.value.aggregates) : Folding st.statement where
  kept := st.kept
  keys := st.groupKeys
  lineage := st.draft.lineage level
  read := Term.readTables x.2
  closed := isClosed_kept hst
  keys_kept _ hc := table_mem_kept_of_mem_groupKeys hst hc
  lineage_keys _ ht := rowIdRef_mem_groupKeys (st.draft_collects.lineage_subset level ht)
  read_kept _ ht :=
    mem_kept_of_mem_outputs hst ho (Term.readTables_subset_of_mem_aggregates hx ht)

/-- A statement with an aggregate is grouped. -/
theorem isGrouped_of_mem_aggregates {o : Output Cell} (ho : o ∈ st.outputs)
    {x : Aggregate × Term} (hx : x ∈ o.value.aggregates) : Assembler.isGrouped st.outputs := by
  rw [Assembler.isGrouped, List.any_eq_true]
  refine ⟨o, ho, bne_iff_ne.mpr fun hnone => ?_⟩
  rw [Accumulator.aggregation_eq_none_iff.mp hnone] at hx
  exact absurd hx List.not_mem_nil

end Stages

/-- **When aggregates are exact.** The statement of an accepted query reads from the kept tables
and, if there is an aggregate, is grouped by the group keys. For each aggregate there is a folding
of these, whose lineage makes up the elements of the level that the aggregate's column belongs to.
Whatever the tables hold, the groups of an element have the same rows of the tables that the
aggregate reads, and so all such rows of the element, just if no path of links outside the lineage
leads from these tables to a key.

What the tables hold is a `Database`: its conditions are any that read the tables of the statement's
own, so one that is always true or never true is not an exception. An aggregate that reads no column
(`g.read = []`) is separated, and exact because there is no row for it to miss; how many joined rows
its group has is left open. -/
theorem aggregates_exact_iff {settings : Settings} {q : QuerySpec} {mapping : Expr}
    {query : Query} {n n' : Nat} (h : (q.compile settings mapping).run n = .ok (query, n')) :
    ∃ st, q.stages settings.naming mapping = .ok st ∧
      Fragment.sourceNames query.sql = st.kept.map tableAlias ∧
      ∀ (i : Nat) (o : Output Cell), st.outputs[i]? = some o → ∀ x ∈ o.value.aggregates,
        query.sql.GroupsBy st.groupKeys ∧
        ∃ (column : PlanColumn) (g : Folding st.statement),
          query.plan.columns[i]? = some column ∧
          query.plan.ChainNames column.level (g.lineage.map rowIdNameOf) ∧
          g.kept = st.kept ∧ g.keys = st.groupKeys ∧ g.read = Term.readTables x.2 ∧
          (g.GroupsAgree ↔ g.IsSeparated) ∧ (g.IsExact ↔ g.IsSeparated) := by
  obtain ⟨st, assembled, hst, hassembled, rfl⟩ := QuerySpec.compile_run_eq_ok_iff.mp h
  have hchecked := Stages.isChecked_of_stages hst
  have hplan : assembled.plan = st.draft.plan :=
    (Assembler.assemble_run_eq_ok hassembled).2.1
  refine ⟨st, hst, Assembler.sourceNames_of_assemble hassembled, fun i o hi x hx => ⟨?_, ?_⟩⟩
  · exact Stages.groupsBy_of_assemble hassembled
      (Stages.isGrouped_of_mem_aggregates (List.mem_of_getElem? hi) hx)
  · obtain ⟨column, hcolumn, hchain⟩ :=
      Draft.ofMapping_chainNames st.statement st.compiled.tables st.outputs hi
    exact ⟨column, Stages.folding hchecked (List.mem_of_getElem? hi) column.level hx,
      hplan ▸ hcolumn, hplan ▸ hchain, rfl, rfl, rfl, Folding.groupsAgree_iff_isSeparated,
      Folding.isExact_iff_isSeparated⟩

/-- People, their classes, and the students of these. -/
def peopleWithStudents : QuerySpec where
  primary := people.primary
  joins := [classJoin, {
    path := "students"
    table := ⟨"student", [⟨"id", none, .integer⟩, ⟨"class_id", none, .integer⟩]⟩
    cardinality := .many
    kind := .left
    condition := .binary .eq (shapeField "students" "class_id") (shapeField "classes" "id") }]

/-- Each person's name and number of classes, with the students of these. -/
def countedClassesAndStudents : Expr :=
  .object [("name", shapeField "person" "name"),
    ("count", .aggregate .count (.member .row "classes")),
    ("students", .select (.member .row "students") "s" (.member (.var "s") "id"))]

/-- Classes are counted for each student, because students are joined through them: some database
has a person whose first student does not have all the classes. -/
theorem aggregates_exact_iff_peopleWithStudents :
    ∃ query n' st, (peopleWithStudents.compile {} countedClassesAndStudents).run 0 =
        .ok (query, n') ∧
      peopleWithStudents.stages .snakeCase countedClassesAndStudents = .ok st ∧
      ∃ o ∈ st.outputs, ∃ x ∈ o.value.aggregates, ∃ g : Folding st.statement,
        g.kept = st.kept ∧ g.keys = st.groupKeys ∧ g.read = Term.readTables x.2 ∧
          ¬ g.GroupsAgree ∧ ¬ g.IsExact := by
  have hrun : ((peopleWithStudents.compile {} countedClassesAndStudents).run 0).any
      (fun x => x.1.plan.rowIds[0]? == some "t0.##rowid" &&
        x.1.plan.columns[1]?.map PlanColumn.level == some 0 &&
        x.1.plan.levels[0]?.map (fun l => (l.parent?, l.rowId)) == some (none, 0)) = true := by
    decide +kernel
  have hstages : (peopleWithStudents.stages .snakeCase countedClassesAndStudents).any
      (fun st => (st.outputs[1]?.any fun o =>
          o.value.aggregates.any fun x => (Term.readTables x.2).contains 1) &&
        (st.groupKeys.any fun c => c.table == 2) &&
        (st.statement.joinNeeds 2).contains 1) = true := by decide +kernel
  obtain ⟨⟨query, n'⟩, hquery, hplan⟩ := Result.any_eq_true_iff.mp hrun
  obtain ⟨st', hst', hany⟩ := Result.any_eq_true_iff.mp hstages
  obtain ⟨st, hst, -, hexact⟩ := aggregates_exact_iff hquery
  obtain rfl : st' = st := Except.ok.inj (hst'.symm.trans hst)
  simp only [Bool.and_eq_true, beq_iff_eq, List.any_eq_true, List.contains_iff_mem,
    Option.any_eq_true] at hplan hany
  obtain ⟨⟨⟨o, ho, x, hx, hread⟩, c, hc, htable⟩, hneeds⟩ := hany
  obtain ⟨⟨hname, hlevel⟩, hroot⟩ := hplan
  obtain ⟨-, column, g, hcolumn, hchain, hkept, hkeys, hg, hagree, hiff⟩ := hexact 1 o ho x hx
  have hnames : g.lineage.map rowIdNameOf = ["t0.##rowid"] := by
    obtain ⟨l, hl, hpair⟩ := Option.map_eq_some_iff.mp hroot
    obtain ⟨hparent, hrowId⟩ := Prod.mk.inj hpair
    rw [hcolumn, Option.map_some, Option.some.injEq] at hlevel
    rw [hlevel] at hchain
    exact hchain.eq_singleton hl hparent (hrowId ▸ hname)
  have hlineage : ∀ t, rowIdNameOf t ≠ "t0.##rowid" → t ∉ g.lineage := fun t hne ht =>
    hne (List.mem_singleton.mp (hnames ▸ List.mem_map_of_mem ht))
  have hclasses : 1 ∉ g.lineage := hlineage 1 (by decide)
  have hstudents : 2 ∉ g.lineage := hlineage 2 (by decide)
  have hrelevant : g.IsRelevant 2 := htable ▸ .key (hkeys ▸ hc)
  -- The join condition of the students reads the classes, which links the two.
  have hlink : g.IsLinked 1 2 := ⟨hclasses, hstudents, Or.inr ⟨2, hrelevant,
    List.mem_cons_of_mem _ hneeds, List.mem_cons_self ..⟩⟩
  have hnot : ¬ g.IsSeparated := fun hseparated =>
    hseparated c (hkeys ▸ hc) (htable ▸ hstudents)
      ⟨1, hg ▸ hread, hclasses, htable ▸ Relation.ReflTransGen.single hlink⟩
  exact ⟨query, n', st', hquery, hst', o, List.mem_of_getElem? ho, x, hx, g, hkept, hkeys, hg,
    fun hall => hnot (hagree.mp hall), fun hall => hnot (hiff.mp hall)⟩

end NestedQuery
