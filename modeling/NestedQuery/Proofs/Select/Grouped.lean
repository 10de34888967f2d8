import NestedQuery.Proofs.Select.Scope
import NestedQuery.Proofs.Select.Witnesses
import NestedQuery.Proofs.Sql.Outside

/-!
# Grouped statements

A grouped query may refer outside aggregates to its group keys only. The columns that are selected,
the ordering and the group keys are written one by one; `IsGroupedBy` says that they fit, and
`isGroupedBy_of_assemble` that they do in every grouped statement, with and without a derived table.
-/

namespace NestedQuery

open Fragment

/-- A query level groups its rows by distinct columns, at least one, and refers to no other columns
in its selection and its ordering, unless inside an aggregate. -/
structure IsGroupedBy (keys : List Reference) (ns : List SqlNode) : Prop where
  /-- The keys. -/
  references_eq : references (clauseNodes .group ns) = keys
  /-- There is a key. -/
  ne_nil : keys ≠ []
  /-- They are distinct. -/
  nodup : keys.Nodup
  /-- The selection. -/
  select : ∀ r ∈ outsideReferences (clauseNodes .select ns), r ∈ keys
  /-- The ordering. -/
  order : ∀ r ∈ outsideReferences (clauseNodes .order ns), r ∈ keys

/-- The clauses of a grouped level, one behind the other. -/
theorem isGroupedBy_of_clauses {keys : List Reference} {ps ss ks os : List SqlNode}
    (hselect : Outside (· ∈ keys) ps)
    (hahead : ∀ n ∈ ss, n.isToken .group = false ∧ n.isToken .order = false)
    (hclause : ∀ n ∈ ks, n.startsClause = false) (hkeys : references ks = keys)
    (horder : Outside (· ∈ keys) os) (hne : keys ≠ []) (hnodup : keys.Nodup) :
    IsGroupedBy keys (.chunk (.token .select) :: (ps ++ .chunk (.token .from_) :: (ss
      ++ .chunk (.token .group) :: (.chunk (.token .by_) :: ks
        ++ .chunk (.token .order) :: os)))) := by
  -- No clause before the keys starts with `GROUP`, and none before the order with `ORDER`.
  have hgroup : ∀ n ∈ .chunk (.token .select) :: (ps ++ .chunk (.token .from_) :: ss),
      n.isToken .group = false := by
    rw [List.forall_mem_cons, List.forall_mem_append, List.forall_mem_cons]
    exact ⟨rfl, fun n hn => isToken_eq_false_of_startsClause rfl (hselect.clause n hn), rfl,
      fun n hn => (hahead n hn).1⟩
  have hby : ∀ n ∈ SqlNode.chunk (.token .by_) :: ks, n.startsClause = false :=
    List.forall_mem_cons.mpr ⟨rfl, hclause⟩
  have hlast : ∀ n ∈ .chunk (.token .select) :: (ps ++ .chunk (.token .from_) :: (ss
      ++ .chunk (.token .group) :: (.chunk (.token .by_) :: ks))), n.isToken .order = false := by
    rw [List.forall_mem_cons, List.forall_mem_append, List.forall_mem_cons,
      List.forall_mem_append, List.forall_mem_cons]
    exact ⟨rfl, fun n hn => isToken_eq_false_of_startsClause rfl (hselect.clause n hn), rfl,
      fun n hn => (hahead n hn).2, rfl,
      fun n hn => isToken_eq_false_of_startsClause rfl (hby n hn)⟩
  refine ⟨?_, hne, hnodup, ?_, ?_⟩
  · have hnodes := clauseNodes_eq (.chunk (.token .order) :: os) hgroup hby rfl
    simp only [List.append_assoc, List.cons_append] at hnodes ⊢
    rw [hnodes]
    exact hkeys
  · have hfirst : ∀ n ∈ ([] : List SqlNode), n.isToken .select = false := nofun
    have hnodes := clauseNodes_eq (.chunk (.token .from_) :: (ss ++ .chunk (.token .group) ::
      (.chunk (.token .by_) :: ks ++ .chunk (.token .order) :: os))) hfirst hselect.clause rfl
    rw [List.nil_append] at hnodes
    rw [hnodes]
    exact hselect.forall_mem
  · have hnodes := clauseNodes_eq [] hlast horder.clause rfl
    simp only [List.append_assoc, List.cons_append, List.append_nil] at hnodes ⊢
    rw [hnodes]
    exact horder.forall_mem

/-! ### What terms refer to -/

/-- Whatever an aggregate is applied to, it refers to nothing outside itself. -/
theorem Engine.isOutside_aggregate {R : Reference → Prop} (e : Engine) (function : Aggregate)
    {operand : Fragment} {ns : List SqlNode} (h : Nests operand ns) (distinct : Bool) :
    IsOutside R (e.aggregate function operand distinct) := by
  obtain ⟨ms, hms⟩ := h.distinct distinct
  obtain ⟨args, hargs⟩ := hms.call function.sqlName
  have hcall : IsOutside R (Fragment.call function.sqlName
      (if distinct then .token .distinct :: operand else operand)) :=
    ⟨_, hargs, outside_aggregate function.sqlName_mem_aggregateNames args⟩
  rcases e.aggregate_eq function operand distinct with heq | ⟨type, -, heq⟩
  · exact heq ▸ hcall
  · have has : IsOutside R [.token .as_, .raw type] :=
      ⟨_, (nests_tokens [.as_] rfl).append (nests_raw type),
        (outside_chunk (by simp) rfl rfl).append (outside_chunk (by simp) rfl rfl)⟩
    exact heq ▸ (closed_isOutside R).call (by decide) ((closed_isOutside R).append hcall has)

namespace TermWriter

variable {w : TermWriter} {R : Reference → Prop}

theorem isOutside_column {c : ColumnRef} (h : R (w.reference c)) : IsOutside R (w.column c) :=
  ⟨_, w.nests_column c, outside_qualified h⟩

theorem isOutside_aggregate (w : TermWriter) (function : Aggregate) (operand : Term) :
    IsOutside R (w.aggregate function operand (w.term operand)) := by
  obtain ⟨f, argument, distinct, ns, heq, hns⟩ := w.exists_nests_aggregate function operand
  exact heq ▸ w.engine.isOutside_aggregate f hns distinct

/-- **Outside aggregates**, a written term refers to the columns that it reads there. -/
theorem isOutside_term {t : Term} (h : ∀ c ∈ Assembler.rowColumns t, R (w.reference c)) :
    IsOutside R (w.term t) := by
  have hvisit : ∀ x ∈ t.visit, x.2 = false → ∀ c ∈ x.1.column?, R (w.reference c) :=
    fun x hx hbeneath c hc => h c (Draft.mem_rowColumns.mpr ⟨x, hx, hbeneath, hc⟩)
  refine (closed_isOutside R).term_of_visit (fun a ha => ?_)
    (fun function operand _ _ => w.isOutside_aggregate function operand) t hvisit
  exact (closed_isOutside R).leaf w fun c hc => isOutside_column (ha rfl c hc)

end TermWriter

/-! ### The parts of a level -/

/-- The nodes of columns, with commas between, refer to these in order. -/
theorem TermWriter.exists_nodes_columns (w : TermWriter) (cs : List ColumnRef) :
    ∃ ns, Nests (Fragment.joined (cs.map w.column) .comma) ns ∧
      (∀ n ∈ ns, n.startsClause = false) ∧ references ns = cs.map w.reference := by
  rw [Fragment.joined]
  induction cs with
  | nil => exact ⟨[], nests_nil, List.forall_mem_nil _, rfl⟩
  | cons c cs ih =>
    have hc := w.nests_column c
    have hclause : ∀ n ∈ [SqlNode.chunk (.ident (w.reference c).table), .chunk (.token .dot),
        .chunk (.ident (w.reference c).column)], n.startsClause = false := by
      simp [SqlNode.startsClause, Token.startsClause]
    obtain ⟨ns, hnests, hns, href⟩ := ih
    -- Between two columns there is a comma, behind the last one there is none.
    cases cs with
    | nil =>
      rw [List.map_singleton, List.intercalate_singleton]
      exact ⟨_, hc, hclause, references_qualified _ _ rfl⟩
    | cons c' cs =>
      rw [List.map_cons, List.map_cons, List.intercalate_cons_cons]
      have hcomma : Nests [.token .comma] [.chunk (.token .comma)] := nests_tokens [.comma] rfl
      refine ⟨_, (hc.append hcomma).append hnests, ?_, ?_⟩
      · rw [List.forall_mem_append, List.forall_mem_append, List.forall_mem_singleton]
        exact ⟨⟨hclause, rfl⟩, hns⟩
      · rw [List.append_assoc, references_qualified _ _ rfl, List.map_cons, ← href]
        rfl

/-- Nodes among which neither the grouping nor the ordering of their level starts. -/
def IsAhead (f : Fragment) : Prop :=
  ∃ ns, Nests f ns ∧ ∀ n ∈ ns, n.isToken .group = false ∧ n.isToken .order = false

theorem IsAhead.append {f g : Fragment} (hf : IsAhead f) (hg : IsAhead g) : IsAhead (f ++ g) := by
  obtain ⟨ns, hns, hnot⟩ := hf
  obtain ⟨ms, hms, hnot'⟩ := hg
  exact ⟨_, hns.append hms, List.forall_mem_append.mpr ⟨hnot, hnot'⟩⟩

/-- What starts no clause may stand ahead. -/
theorem isAhead_of_startsClause {f : Fragment} {ns : List SqlNode} (h : Nests f ns)
    (hns : ∀ n ∈ ns, n.startsClause = false) : IsAhead f :=
  ⟨ns, h, fun n hn => ⟨isToken_eq_false_of_startsClause rfl (hns n hn),
    isToken_eq_false_of_startsClause rfl (hns n hn)⟩⟩

theorem TermWriter.isAhead_term (w : TermWriter) (t : Term) : IsAhead (w.term t) := by
  obtain ⟨ns, hns, hquiet⟩ := isQuiet_term (w := w) (R := fun _ => True) (t := t)
    (fun _ _ => trivial) fun _ _ => trivial
  exact isAhead_of_startsClause hns hquiet.clause

namespace Assembler

variable {a : Assembler} {R : Reference → Prop} {w : TermWriter} {d : Draft}

theorem joinsKeep_isAhead (a : Assembler) : a.JoinsKeep IsAhead where
  nil := ⟨[], nests_nil, nofun⟩
  append := IsAhead.append
  token {t} ht := by
    refine ⟨_, nests_token (t := t) ?_ ?_, List.forall_mem_singleton.mpr ?_⟩ <;> revert t <;> decide
  table table name n := by
    obtain ⟨rows, hrows, -⟩ := a.engine.nests_tableSource table name n
    exact ⟨_, hrows, by simp [SqlNode.isToken]⟩
  on _ _ := a.writer.isAhead_term _
  filter _ := a.writer.isAhead_term _

theorem exists_nests_derivedRows {kept : List TableId} {keys : List ColumnRef} {ms : List Marker}
    {f : Fragment} {n n' : Nat} (h : (a.derivedRows kept d keys ms).run n = .ok (f, n')) :
    ∃ ns, Nests f ns := by
  obtain ⟨source, hsource, rfl⟩ := derivedRows_run_eq_ok h
  obtain ⟨rows, hrows, -⟩ := a.joinsKeep_isAhead.sources hsource
  have hmarker : ∀ m, IsQuiet (fun _ => True) (a.markerColumn keys m) := by
    intro m
    have hselects : Stages.Selects (fun _ => True) (a.markerColumn keys m) [m.name] :=
      Stages.selects_markerColumn fun _ _ => trivial
    obtain ⟨ns, hns, hquiet, -⟩ := hselects
    exact ⟨ns, hns, hquiet⟩
  have hselection : IsQuiet (fun _ => True) (a.derivedSelection d keys ms) :=
    closed_derivedSelection (closed_isQuiet _)
      (fun c => IsQuiet.named (TermWriter.isQuiet_column trivial) (derivedName c)) hmarker
  obtain ⟨columns, hcolumns, -⟩ := hselection
  have hselect := (nests_tokens [.select] rfl).append hcolumns
  exact ⟨_, (hselect.append (nests_tokens [.from_] rfl)).append hrows⟩

/-- The rows come ahead of their grouping. -/
theorem isAhead_rowSource {kept : List TableId} {keys : List ColumnRef} {ms : List Marker}
    {f : Fragment} {n n' : Nat} (h : (a.rowSource kept d keys ms).run n = .ok (f, n')) :
    IsAhead f := by
  obtain ⟨-, h⟩ | ⟨-, rows, hrows, rfl⟩ := rowSource_run_eq_ok h
  · exact a.joinsKeep_isAhead.sources h
  · obtain ⟨ns, hns⟩ := exists_nests_derivedRows hrows
    exact ⟨_, hns.parens.named derivedTable, by simp [SqlNode.isToken]⟩

theorem isOutside_projection (houtputs : ∀ p ∈ d.outputs, ∀ c ∈ rowColumns p.value,
    R (w.reference c)) (hrowIds : ∀ t ∈ d.rowIdTables, R (w.reference (rowIdRef t))) :
    ∃ f, projection w d = [.token .select] ++ f ∧ IsOutside R f := by
  refine ⟨_, rfl, (closed_isOutside R).joined fun f hf => ?_⟩
  rcases List.mem_append.mp hf with hf | hf
  · obtain ⟨p, hp, rfl⟩ := List.mem_map.mp hf
    exact (TermWriter.isOutside_term (houtputs p hp)).named p.name
  · obtain ⟨⟨name, t⟩, ht, rfl⟩ := List.mem_map.mp hf
    have ht : t ∈ d.rowIdTables := (List.of_mem_zip ht).2
    exact (TermWriter.isOutside_column (hrowIds t ht)).named name

theorem isOutside_paging (engine : Engine) (skip? take? : Option Nat) :
    IsOutside R ((engine.paging skip? take?).getD []) :=
  (closed_isOutside R).paging (fun text n => ⟨_, (nests_raw text).append (nests_number n),
    (outside_chunk (by simp) rfl rfl).append (outside_chunk (by simp) rfl rfl)⟩) engine skip? take?

/-- The ordering, with what follows it. -/
theorem isOutside_ordering (horder : ∀ key ∈ a.statement.order, ∀ c ∈ rowColumns key.1,
    R (w.reference c)) (hlevels : ∀ l ∈ d.plan.levels,
      R (w.reference (rowIdRef ((d.rowIdTables[l.rowId]?).getD 0)))) :
    ∃ f, a.ordering w d ++ (a.engine.paging a.statement.skip? a.statement.take?).getD [] =
      [.token .order] ++ f ∧ IsOutside R f := by
  have hby : IsOutside R [.token .by_] :=
    ⟨_, nests_tokens [.by_] rfl, outside_chunk (by simp) rfl rfl⟩
  refine ⟨_, List.append_assoc .., (closed_isOutside R).append ((closed_isOutside R).append hby
    ((closed_isOutside R).joined fun f hf => ?_)) (isOutside_paging a.engine _ _)⟩
  rcases List.mem_append.mp hf with hf | hf
  · obtain ⟨⟨key, direction⟩, hkey, rfl⟩ := List.mem_map.mp hf
    have hdirection : IsOutside R [.token (directionToken direction)] := by
      cases direction with
      | asc => exact ⟨_, nests_tokens [.asc] rfl, outside_chunk (by simp) rfl rfl⟩
      | desc => exact ⟨_, nests_tokens [.desc] rfl, outside_chunk (by simp) rfl rfl⟩
    exact (closed_isOutside R).append (TermWriter.isOutside_term (horder _ hkey)) hdirection
  · obtain ⟨l, hl, rfl⟩ := List.mem_map.mp hf
    exact TermWriter.isOutside_column (hlevels l hl)

/-! ### Group keys -/

/-- The keys are all that outputs, ordering keys and row numbers read outside aggregates. -/
structure CoversReads (a : Assembler) (outputs : List (Output Cell)) (d : Draft)
    (keys : List ColumnRef) : Prop where
  /-- The outputs. -/
  outputs : ∀ o ∈ outputs, ∀ c ∈ rowColumns o.value, c ∈ keys
  /-- The ordering keys. -/
  order : ∀ key ∈ a.statement.order, ∀ c ∈ rowColumns key.1, c ∈ keys
  /-- The selected row numbers. -/
  rowIds : ∀ t ∈ d.rowIdTables, rowIdRef t ∈ keys
  /-- The row numbers of the levels. -/
  levels : ∀ l ∈ d.plan.levels, ∃ t, d.rowIdTables[l.rowId]? = some t ∧ rowIdRef t ∈ keys

/-- Around a derived table, columns go by the names that it gives them. -/
theorem reference_outerWriter (a : Assembler) (ms : List Marker) (c : ColumnRef) :
    (a.outerWriter ms).reference c =
      if ms.isEmpty then ⟨c.tableAlias, c.column⟩ else ⟨derivedTable, derivedName c⟩ := by
  cases ms <;> rfl

/-- A writer gives different references to different columns. -/
theorem reference_injective {c c' : ColumnRef} (hc : c.tableAlias = tableAlias c.table)
    (hc' : c'.tableAlias = tableAlias c'.table) (h : w.reference c = w.reference c') : c = c' := by
  unfold TermWriter.reference at h
  split at h
  · obtain ⟨halias, hcolumn⟩ := Reference.mk.inj h
    obtain ⟨t, a, n⟩ := c
    obtain ⟨t', a', n'⟩ := c'
    obtain rfl : a = a' := halias
    obtain rfl : n = n' := hcolumn
    obtain rfl : t = t' := tableAlias_injective (hc.symm.trans hc')
    rfl
  · exact Stages.derivedName_injective hc hc' (Reference.mk.inj h).2

/-- The outputs and ordering keys read columns under the names that tables have in the
statement. -/
def ReadsNamed (a : Assembler) (outputs : List (Output Cell)) : Prop :=
  ∀ t ∈ outputs.map Output.value ++ a.statement.order.map Prod.fst,
    ∀ c ∈ Term.columns t, c.tableAlias = tableAlias c.table

theorem rowColumns_subset_columns (t : Term) : rowColumns t ⊆ Term.columns t := by
  intro c hc
  obtain ⟨x, hx, -, hcolumn⟩ := Draft.mem_rowColumns.mp hc
  exact List.mem_filterMap.mpr ⟨x.1, List.mem_map_of_mem hx, hcolumn⟩

section

variable {outputs : List (Output Cell)} {tables : List MappedTable}

theorem mem_groupKeys_iff {c : ColumnRef} :
    c ∈ a.groupKeys (Draft.ofMapping a.statement tables outputs) ↔
      (∃ o ∈ outputs, c ∈ rowColumns o.value) ∨
      (∃ key ∈ a.statement.order, c ∈ rowColumns key.1) ∨
      ∃ t ∈ (Draft.ofMapping a.statement tables outputs).rowIdTables, rowIdRef t = c :=
  @Stages.mem_groupKeys_iff ⟨a.statement, ⟨[], tables⟩, outputs, a.pool⟩ c

/-- **The group keys cover all reads** outside aggregates. -/
theorem coversReads_groupKeys (a : Assembler) (outputs : List (Output Cell))
    (tables : List MappedTable) :
    let d := Draft.ofMapping a.statement tables outputs
    a.CoversReads outputs d (a.groupKeys d) := by
  refine ⟨fun o ho c hc => mem_groupKeys_iff.mpr (.inl ⟨o, ho, hc⟩),
    fun key hkey c hc => mem_groupKeys_iff.mpr (.inr (.inl ⟨key, hkey, hc⟩)),
    fun t ht => mem_groupKeys_iff.mpr (.inr (.inr ⟨t, ht, rfl⟩)), fun l hl => ?_⟩
  have hformed := (Draft.ofMapping_isGuarded a.statement tables outputs).built.wellFormed
  have hrowIds := (Draft.ofMapping_collects a.statement tables outputs).1.rowIds
  have hlt : l.rowId < (Draft.ofMapping a.statement tables outputs).rowIdTables.length := by
    have hlt := hformed.rowId_lt l hl
    rwa [hrowIds, List.length_map] at hlt
  exact ⟨_, List.getElem?_eq_getElem hlt,
    mem_groupKeys_iff.mpr (.inr (.inr ⟨_, List.getElem_mem hlt, rfl⟩))⟩

theorem tableAlias_of_mem_groupKeys (hnamed : a.ReadsNamed outputs) {c : ColumnRef}
    (hc : c ∈ a.groupKeys (Draft.ofMapping a.statement tables outputs)) :
    c.tableAlias = tableAlias c.table := by
  rcases mem_groupKeys_iff.mp hc with ⟨o, ho, hc⟩ | ⟨key, hkey, hc⟩ | ⟨t, -, rfl⟩
  · exact hnamed _ (List.mem_append_left _ (List.mem_map_of_mem ho)) c
      (rowColumns_subset_columns _ hc)
  · exact hnamed _ (List.mem_append_right _ (List.mem_map_of_mem hkey)) c
      (rowColumns_subset_columns _ hc)
  · rfl

theorem tableAlias_of_mem_derivedColumns (hnamed : a.ReadsNamed outputs) {c : ColumnRef}
    (hc : c ∈ a.derivedColumns (Draft.ofMapping a.statement tables outputs)
      (a.groupKeys (Draft.ofMapping a.statement tables outputs))) :
    c.tableAlias = tableAlias c.table := by
  rw [derivedColumns, List.mem_eraseDups, List.mem_append, List.mem_append, List.mem_append,
    List.mem_flatMap, List.mem_flatMap, List.mem_map] at hc
  rcases hc with ((⟨p, hp, hc⟩ | ⟨key, hkey, hc⟩) | hc) | ⟨t, -, rfl⟩
  · obtain ⟨o, ho, hvalue⟩ := Draft.exists_of_mem_ofMapping hp
    exact hnamed _ (List.mem_append_left _ (List.mem_map_of_mem ho)) c (hvalue ▸ hc)
  · exact hnamed _ (List.mem_append_right _ (List.mem_map_of_mem hkey)) c hc
  · exact tableAlias_of_mem_groupKeys hnamed hc
  · rfl

/-- The clauses of a grouped statement, whatever its rows come from. -/
theorem exists_grouped_level {source : Fragment} {keys : List ColumnRef}
    (hgrouped : isGrouped outputs) (hsource : IsAhead source)
    (hcovers : a.CoversReads outputs (Draft.ofMapping a.statement tables outputs) keys)
    (hne : keys ≠ []) (hnodup : (keys.map w.reference).Nodup) :
    ∃ level, Fragment.nodes (projection w (Draft.ofMapping a.statement tables outputs)
        ++ [.token .from_] ++ source ++ groupClause w outputs keys
        ++ a.ordering w (Draft.ofMapping a.statement tables outputs)
        ++ (a.engine.paging a.statement.skip? a.statement.take?).getD []) = some level ∧
      IsGroupedBy (keys.map w.reference) level := by
  have hread : ∀ c ∈ keys, w.reference c ∈ keys.map w.reference := fun c => List.mem_map_of_mem
  have hvalues : ∀ p ∈ (Draft.ofMapping a.statement tables outputs).outputs,
      ∀ c ∈ rowColumns p.value, w.reference c ∈ keys.map w.reference := by
    intro p hp c hc
    obtain ⟨o, ho, hvalue⟩ := Draft.exists_of_mem_ofMapping hp
    exact hread c (hcovers.outputs o ho c (hvalue ▸ hc))
  obtain ⟨columns, hprojection, ps, hps, hselect⟩ :=
    isOutside_projection hvalues fun t ht => hread _ (hcovers.rowIds t ht)
  obtain ⟨trailing, hordering, os, hos, horder⟩ :=
    isOutside_ordering (d := Draft.ofMapping a.statement tables outputs)
      (fun key hkey c hc => hread c (hcovers.order key hkey c hc)) fun l hl => by
        obtain ⟨t, ht, hmem⟩ := hcovers.levels l hl
        rw [ht, Option.getD_some]
        exact hread _ hmem
  obtain ⟨ks, hks, hclause, hreferences⟩ := w.exists_nodes_columns keys
  obtain ⟨ss, hss, hahead⟩ := hsource
  -- The clauses nest each for itself, and so does the whole statement.
  have hstatement := ((nests_tokens [.select] rfl).append hps).append
    (((nests_tokens [.from_] rfl).append hss).append
    (((nests_tokens [.group, .by_] rfl).append hks).append
    ((nests_tokens [.order] rfl).append hos)))
  refine ⟨_, ?_, isGroupedBy_of_clauses hselect hahead hclause hreferences horder ?_ hnodup⟩
  · rw [hprojection, groupClause_of_isGrouped hgrouped, List.append_assoc _ (a.ordering ..),
      hordering]
    simp only [List.append_assoc, List.map_cons, List.map_nil] at hstatement ⊢
    exact hstatement.nodes_eq
  · rwa [ne_eq, List.map_eq_nil_iff]

end

end Assembler

/-- **Grouped statements fit their keys.** If an output is aggregated, the statement is grouped by
distinct columns, at least one, and selects and orders by nothing else outside aggregates: every
column that an output or an ordering key reads there and every row number that is selected or
ordered by is a key. With a derived table the keys are the names that it gives to the same columns,
different ones to different columns. -/
theorem isGroupedBy_of_assemble {a : Assembler} {outputs : List (Output Cell)}
    {tables : List MappedTable} {assembled : Assembled} {n n' : Nat}
    (h : (a.assemble outputs tables).run n = .ok (assembled, n'))
    (hgrouped : Assembler.isGrouped outputs) (hnamed : a.ReadsNamed outputs) :
    let d := Draft.ofMapping a.statement tables outputs
    let keys := a.groupKeys d
    ∃ level ms, assembled.sql.nodes = some level ∧
      a.markers (a.statement.kept d.neededTables) d = .ok ms ∧
      IsGroupedBy (keys.map (a.outerWriter ms).reference) level ∧
      a.CoversReads outputs d keys ∧ keys ≠ [] ∧ keys.Nodup ∧
      (∀ c ∈ keys, (a.outerWriter ms).reference c =
        if ms.isEmpty then ⟨c.tableAlias, c.column⟩ else ⟨derivedTable, derivedName c⟩) ∧
      keys ⊆ a.derivedColumns d keys ∧
      ∀ c ∈ a.derivedColumns d keys, ∀ c' ∈ a.derivedColumns d keys,
        derivedName c = derivedName c' → c = c' := by
  obtain ⟨-, -, ms, source, hms, hsource, hsql⟩ := Assembler.assemble_run_eq_ok h
  have hkeys : a.keysOf outputs (Draft.ofMapping a.statement tables outputs) =
      a.groupKeys (Draft.ofMapping a.statement tables outputs) := if_pos hgrouped
  rw [hkeys] at hsource hsql
  have hcovers := a.coversReads_groupKeys outputs tables
  have hnodup : (a.groupKeys (Draft.ofMapping a.statement tables outputs)).Nodup :=
    nodup_eraseDups _
  -- The row number of the root level is a key.
  have hne : a.groupKeys (Draft.ofMapping a.statement tables outputs) ≠ [] := by
    have hformed := (Draft.ofMapping_isGuarded a.statement tables outputs).built.wellFormed
    obtain ⟨t, -, ht⟩ := hcovers.levels _ (List.getElem_mem hformed.levels_pos)
    exact List.ne_nil_of_mem ht
  have hreferences : ((a.groupKeys (Draft.ofMapping a.statement tables outputs)).map
      (a.outerWriter ms).reference).Nodup :=
    hnodup.map_on fun c hc c' hc' => Assembler.reference_injective
      (Assembler.tableAlias_of_mem_groupKeys hnamed hc)
      (Assembler.tableAlias_of_mem_groupKeys hnamed hc')
  obtain ⟨level, hlevel, hgroups⟩ := Assembler.exists_grouped_level (w := a.outerWriter ms)
    hgrouped (Assembler.isAhead_rowSource hsource) hcovers hne hreferences
  refine ⟨level, ms, hsql ▸ hlevel, hms, hgroups, hcovers, hne, hnodup,
    fun c _ => a.reference_outerWriter ms c, fun c hc => ?_, fun c hc c' hc' => ?_⟩
  · rw [Assembler.derivedColumns, List.mem_eraseDups]
    exact List.mem_append_left _ (List.mem_append_right _ hc)
  · exact Stages.derivedName_injective (Assembler.tableAlias_of_mem_derivedColumns hnamed hc)
      (Assembler.tableAlias_of_mem_derivedColumns hnamed hc')

/-- The sums of classes are grouped by the names and the row numbers of people, which a derived
table hands on. -/
theorem isGroupedBy_of_assemble_summedClasses :
    ∃ st assembled n' level, peopleWithStudents.stages .snakeCase summedClasses = .ok st ∧
      ((st.assembler .ansi).assemble st.outputs st.compiled.tables).run 0 = .ok (assembled, n') ∧
      assembled.sql.nodes = some level ∧
      IsGroupedBy [⟨"##rows", "t0.name"⟩, ⟨"##rows", "t0.##rowid"⟩] level := by
  have hstages : (peopleWithStudents.stages .snakeCase summedClasses).any (fun st =>
      Assembler.isGrouped st.outputs &&
      (((st.assembler .ansi).assemble st.outputs st.compiled.tables).run 0).any (fun _ => true) &&
      (((st.assembler .ansi).markers st.kept st.draft).any fun ms =>
        st.groupKeys.map ((st.assembler .ansi).outerWriter ms).reference ==
          [⟨"##rows", "t0.name"⟩, ⟨"##rows", "t0.##rowid"⟩])) = true := by decide +kernel
  obtain ⟨st, hst, hrun⟩ := Result.any_eq_true_iff.mp hstages
  rw [Bool.and_eq_true, Bool.and_eq_true] at hrun
  obtain ⟨⟨hgrouped, hrun⟩, hmarkers⟩ := hrun
  obtain ⟨⟨assembled, n'⟩, hassembled, -⟩ := Result.any_eq_true_iff.mp hrun
  obtain ⟨ms', hms', hreferences⟩ := Result.any_eq_true_iff.mp hmarkers
  have hchecked := Stages.isChecked_of_stages hst
  -- Every column that is read belongs to a table of the statement.
  have hnamed : (st.assembler .ansi).ReadsNamed st.outputs := by
    intro t ht c hc
    rcases List.mem_append.mp ht with ht | ht
    · obtain ⟨o, ho, rfl⟩ := List.mem_map.mp ht
      exact (hchecked.outputs o ho).tableAlias_eq hc
    · obtain ⟨key, hkey, rfl⟩ := List.mem_map.mp ht
      exact (hchecked.statement.order key hkey).isOf.tableAlias_eq hc
  obtain ⟨level, ms, hlevel, hms, hgroups, -⟩ :=
    isGroupedBy_of_assemble hassembled hgrouped hnamed
  obtain rfl : ms' = ms := Except.ok.inj (hms'.symm.trans hms)
  rw [beq_iff_eq] at hreferences
  have hkeys : st.groupKeys.map ((st.assembler .ansi).outerWriter ms').reference =
      ((st.assembler .ansi).groupKeys (Draft.ofMapping (st.assembler .ansi).statement
        st.compiled.tables st.outputs)).map ((st.assembler .ansi).outerWriter ms').reference := rfl
  rw [← hkeys, hreferences] at hgroups
  exact ⟨st, assembled, n', level, hst, hassembled, hlevel, hgroups⟩

end NestedQuery
