import NestedQuery.Proofs.Graph.Grouping
import NestedQuery.Proofs.Select.Aggregates
import NestedQuery.Proofs.Sql.Scope

/-!
# The scope of column references

Every column that a statement refers to is one of a table that is introduced in the same query
level, exactly once (`inScope_compile`). Without a derived table there is one level, which
introduces the kept tables; a join condition reads only its own table and earlier ones. With a
derived table the kept tables are introduced inside it, and the level around it reads only columns
that the derived table selects once.

A part of a statement refers to the columns of its terms, so the work is in the tables: whatever a
part reads is kept.
-/

namespace NestedQuery

open Fragment

/-! ### Table sources -/

theorem isQuery_of_isTableSource {ns : List SqlNode} (h : isTableSource ns) : isQuery ns := by
  unfold isTableSource at h
  split at h
  · exact h
  · exact absurd h Bool.false_ne_true

theorem queries_tableSource {rows : List SqlNode} (h : isTableSource rows) :
    queries [.group rows] = [] := by
  show (if isTableSource rows then [] else _) ++ [] = []
  rw [if_pos h]
  rfl

namespace Engine

theorem nests_rowNumbers (e : Engine) (table : String) (n : Nat) :
    ∃ ns, Nests ((e.rowNumbers table).run n).1 ns := by
  unfold rowNumbers
  cases e.rowIds with
  | window =>
    show ∃ ns, Nests (Fragment.call "ROW_NUMBER" [] ++ ([.token .over_] ++ Fragment.parens [])) ns
    have hcall := (nests_function "ROW_NUMBER").append nests_nil.parens
    exact ⟨_, hcall.append ((nests_tokens [.over_] rfl).append nests_nil.parens)⟩
  | native column => exact ⟨_, nests_ident column⟩
  | emulated key =>
    have hcount := (nests_tokens [.select] rfl).append
      ((nests_function "COUNT").append (nests_tokens [.star] rfl).parens)
    have hfrom := (hcount.append (nests_tokens [.from_] rfl)).append
      ((nests_ident table).named s!"rs_tmp_{n + 1}")
    have hwhere := ((hfrom.append (nests_tokens [.where_] rfl)).append
      (nests_qualified s!"rs_tmp_{n + 1}" key)).append (nests_raw "<=")
    exact ⟨_, (hwhere.append (nests_qualified table key)).parens⟩

/-- A table source is a table source, under its name. -/
theorem nests_tableSource (e : Engine) (table name : String) (n : Nat) :
    ∃ rows, Nests ((e.tableSource table name).run n).1
      [.group rows, .chunk (.token .as_), .chunk (.ident name)] ∧ isTableSource rows := by
  obtain ⟨ns, hns⟩ := e.nests_rowNumbers table n
  have hselect : Nests [.token .select] [.chunk (.token .select)] := nests_tokens [.select] rfl
  have hstar : Nests ([.token .comma, .token .star, .token .from_] ++ [.ident table])
      [.chunk (.token .comma), .chunk (.token .star), .chunk (.token .from_),
        .chunk (.ident table)] :=
    (nests_tokens [.comma, .star, .from_] rfl).append (nests_ident table)
  refine ⟨_, ((hselect.append (hns.named rowIdColumn)).append hstar).parens.named name, ?_⟩
  unfold isTableSource
  rw [List.reverse_append]
  rfl

end Engine

/-! ### Terms -/

namespace TermWriter

/-- What a writer writes for a column. -/
def reference (w : TermWriter) (c : ColumnRef) : Reference :=
  match w.markers? with
  | none => ⟨c.tableAlias, c.column⟩
  | some _ => ⟨derivedTable, derivedName c⟩

variable {w : TermWriter} {R : Reference → Prop}

theorem nests_column (w : TermWriter) (c : ColumnRef) :
    Nests (w.column c) [.chunk (.ident (w.reference c).table), .chunk (.token .dot),
      .chunk (.ident (w.reference c).column)] := by
  have hcolumn : w.column c = qualified (w.reference c).table (w.reference c).column := by
    unfold column reference
    cases w.markers? <;> rfl
  rw [hcolumn]
  exact nests_qualified _ _

theorem isQuiet_column {c : ColumnRef} (h : R (w.reference c)) : IsQuiet R (w.column c) :=
  ⟨_, w.nests_column c, quiet_qualified h⟩

theorem keeps_isQuiet (hmarker : ∀ m ∈ w.markers?.getD [], R ⟨derivedTable, m.name⟩) :
    w.Keeps (IsQuiet R) where
  closed := closed_isQuiet R
  type type _ := ⟨_, nests_raw type, quiet_chunk (by simp) rfl⟩
  marker m hm := isQuiet_qualified (hmarker m hm)

theorem isQuiet_term (hmarker : ∀ m ∈ w.markers?.getD [], R ⟨derivedTable, m.name⟩) {t : Term}
    (h : ∀ c ∈ Term.columns t, R (w.reference c)) : IsQuiet R (w.term t) := by
  refine (keeps_isQuiet hmarker).term t fun a ha c hc => isQuiet_column (h c ?_)
  exact List.mem_filterMap.mpr ⟨a, ha, hc⟩

theorem exists_nests_term (w : TermWriter) (t : Term) : ∃ ns, Nests (w.term t) ns := by
  have hquiet : IsQuiet (fun _ => True) (w.term t) :=
    isQuiet_term (fun _ _ => trivial) fun _ _ => trivial
  obtain ⟨ns, hns, -⟩ := hquiet
  exact ⟨ns, hns⟩

/-- What an aggregate of a term is applied to. -/
theorem exists_nests_aggregate (w : TermWriter) (function : Aggregate) (operand : Term) :
    ∃ f argument distinct ns, w.aggregate function operand (w.term operand) =
      w.engine.aggregate f argument distinct ∧ Nests argument ns := by
  have hkeeps : w.Keeps (IsQuiet fun _ => True) := keeps_isQuiet fun _ _ => trivial
  have hquiet : IsQuiet (fun _ => True) (w.term operand) :=
    isQuiet_term (fun _ _ => trivial) fun _ _ => trivial
  obtain ⟨f, argument, distinct, heq, rfl | ⟨m, hm, rfl⟩⟩ :=
    w.aggregate_eq function operand (w.term operand)
  · obtain ⟨ns, hns, -⟩ := hquiet
    exact ⟨f, _, distinct, ns, heq, hns⟩
  · obtain ⟨ns, hns, -⟩ := hkeeps.marked hm hquiet
    exact ⟨f, _, distinct, ns, heq, hns⟩

end TermWriter

/-! ### Kept columns -/

/-- The column is one of a kept table, under the name that the table has in the statement. -/
structure ColumnRef.IsKept (kept : List TableId) (c : ColumnRef) : Prop where
  /-- The name. -/
  tableAlias_eq : c.tableAlias = NestedQuery.tableAlias c.table
  /-- The table. -/
  table_mem : c.table ∈ kept

theorem Term.IsOf.tableAlias_eq {ids : List TableId} {t : Term} (h : Term.IsOf ids t)
    {c : ColumnRef} (hc : c ∈ Term.columns t) : c.tableAlias = tableAlias c.table := by
  obtain ⟨leaf, hleaf, hcolumn⟩ := List.mem_filterMap.mp hc
  obtain ⟨x, hx, rfl⟩ := List.mem_map.mp hleaf
  have hof := h x hx
  obtain ⟨leaf, beneath⟩ := x
  cases leaf with
  | param id => exact absurd hcolumn nofun
  | column c' r function type =>
    obtain rfl := Option.some.inj hcolumn
    exact hof.2.1

namespace Stages

variable {st : Stages}

theorem isKept_rowIdRef (hst : st.IsChecked) {t : TableId} (ht : t ∈ st.draft.rowIdTables) :
    (rowIdRef t).IsKept st.kept :=
  ⟨rfl, mem_kept_of_mem_rowIdTables hst ht⟩

theorem isKept_of_mem_outputs (hst : st.IsChecked) {o : Output Cell} (ho : o ∈ st.outputs)
    {c : ColumnRef} (hc : c ∈ Term.columns o.value) : c.IsKept st.kept :=
  ⟨(hst.outputs o ho).tableAlias_eq hc,
    mem_kept_of_mem_outputs hst ho (Term.table_mem_neededTables hc)⟩

theorem isKept_of_order (hst : st.IsChecked) {key : Term × Direction}
    (hkey : key ∈ st.statement.order) {c : ColumnRef} (hc : c ∈ Term.columns key.1) :
    c.IsKept st.kept :=
  ⟨(hst.statement.order key hkey).isOf.tableAlias_eq hc, table_mem_kept_of_order hst hkey hc⟩

theorem isKept_of_filter (hst : st.IsChecked) {filter : Term}
    (hfilter : st.statement.filter? = some filter) {c : ColumnRef} (hc : c ∈ Term.columns filter) :
    c.IsKept st.kept := by
  have hneeded := Term.table_mem_neededTables hc
  refine ⟨(hst.statement.filter filter hfilter).isOf.tableAlias_eq hc,
    (isClosed_kept hst).filter_mem _ ?_⟩
  rw [Statement.filterTables, hfilter]
  exact hneeded

/-- A join condition reads kept tables up to its own. -/
theorem isKept_of_condition (hst : st.IsChecked) {id : TableId} {j : Join} {on : Term}
    (hj : st.statement.join? id = some j) (hon : j.on? = some on) (hid : id ∈ st.kept)
    {c : ColumnRef} (hc : c ∈ Term.columns on) : c.IsKept st.kept ∧ c.table ≤ id := by
  obtain ⟨on', hon', hplain, hle⟩ := hst.statement.joins id j hj
  obtain rfl : on' = on := Option.some.inj (hon'.symm.trans hon)
  have hneeds : c.table ∈ st.statement.joinNeeds id := by
    rw [Statement.joinNeeds, hj, Option.bind_some, hon]
    exact Term.table_mem_neededTables hc
  exact ⟨⟨hplain.isOf.tableAlias_eq hc, (isClosed_kept hst).needs_mem id hid _ hneeds⟩, hle c hc⟩

theorem isKept_of_mem_groupKeys (hst : st.IsChecked) {c : ColumnRef} (hc : c ∈ st.groupKeys) :
    c.IsKept st.kept := by
  refine ⟨?_, table_mem_kept_of_mem_groupKeys hst hc⟩
  rcases mem_groupKeys_iff.mp hc with ⟨o, ho, hc⟩ | ⟨key, hkey, hc⟩ | ⟨t, -, rfl⟩
  · obtain ⟨x, hx, -, hcolumn⟩ := Draft.mem_rowColumns.mp hc
    exact (hst.outputs o ho).tableAlias_eq
      (List.mem_filterMap.mpr ⟨x.1, List.mem_map.mpr ⟨x, hx, rfl⟩, hcolumn⟩)
  · have hplain := hst.statement.order key hkey
    exact hplain.isOf.tableAlias_eq (hplain.mem_rowColumns_iff.mp hc)
  · rfl

end Stages

/-! ### Sources -/

/-- The fragment introduces tables under the names, in this order. -/
def AddsSources (R : Reference → Prop) (before : List String) (f : Fragment)
    (names : List String) : Prop :=
  ∃ ns is, Nests f ns ∧ Clause R before ns is [] ∧ is.map Introduction.name = names ∧
    ∀ i ∈ is, isTableSource i.rows

section

variable {R : Reference → Prop} {before names names' : List String} {f g : Fragment}

theorem addsSources_nil : AddsSources R before [] [] :=
  ⟨[], [], nests_nil, clause_nil, rfl, nofun⟩

theorem AddsSources.append (h : AddsSources R before f names)
    (h' : AddsSources R (before ++ names) g names') :
    AddsSources R before (f ++ g) (names ++ names') := by
  obtain ⟨ns, is, hnests, hclause, rfl, hsources⟩ := h
  obtain ⟨ms, js, hnests', hclause', rfl, hsources'⟩ := h'
  refine ⟨ns ++ ms, is ++ js, hnests.append hnests', hclause.append hclause', ?_, ?_⟩
  · rw [List.map_append]
  · rw [List.forall_mem_append]
    exact ⟨hsources, hsources'⟩

/-- A clause without tables. -/
theorem addsSources_token {t : Token} (hstarts : t.startsClause) (hfrom : t ≠ .from_)
    (hjoin : t ≠ .join) (hon : t ≠ .on_) (h : IsQuiet R f) :
    AddsSources R before (.token t :: f) [] := by
  obtain ⟨ns, hnests, hquiet⟩ := h
  have hopen : t ≠ .openParen ∧ t ≠ .closeParen := by
    constructor <;> (rintro rfl; exact absurd hstarts (by decide))
  exact ⟨_, [], (nests_token hopen.1 hopen.2).append hnests,
    clause_token hstarts hfrom hjoin hon hquiet, rfl, nofun⟩

end

namespace Assembler

variable {a : Assembler} {R : Reference → Prop} {before : List String}

theorem addsSources_joinClause {id : TableId} {j : Join} {f : Fragment} {n n' : Nat}
    (h : (a.joinClause id j).run n = .ok (f, n'))
    (hcond : ∀ on, j.on? = some on → ∀ c ∈ Term.columns on,
      R (a.writer.reference c) ∧ c.tableAlias ∈ before ++ [tableAlias id]) :
    AddsSources R before f [tableAlias id] := by
  obtain ⟨on, table, hon, hdraw, rfl⟩ := joinClause_run_eq_ok h
  obtain ⟨rows, hrows, hsource⟩ := a.engine.nests_tableSource j.table.name (tableAlias id) n
  rw [← draw_run_eq_ok hdraw] at hrows
  -- The condition is quiet for what may be referred to here, and for all that is joined so far.
  have hquiet : IsQuiet (fun r => R r ∧ r.table ∈ before ++ [tableAlias id])
      (a.writer.term on) :=
    TermWriter.isQuiet_term nofun fun c hc => hcond on hon c hc
  obtain ⟨cond, hnests, hquiet⟩ := hquiet
  have hkind : joinToken j.kind = .inner ∨ joinToken j.kind = .left := by
    cases j.kind
    · exact Or.inl rfl
    · exact Or.inr rfl
  have hjoin : Nests [.token (joinToken j.kind), .token .join]
      [.chunk (.token (joinToken j.kind)), .chunk (.token .join)] := by
    cases j.kind <;> exact nests_tokens [joinToken _, .join] rfl
  have hclause := clause_join (R := R) hkind (isQuery_of_isTableSource hsource)
    (tableAlias id) (hquiet.mono fun r hr => hr.1) fun r hr => (hquiet.refers.forall_mem r hr).2
  rw [queries_tableSource hsource] at hclause
  exact ⟨_, _, ((hjoin.append hrows).append (nests_tokens [.on_] rfl)).append hnests, hclause,
    rfl, List.forall_mem_singleton.mpr hsource⟩

/-- The kept tables up to a place, under their names. -/
def keptBelow (kept : List TableId) (id : TableId) : List String :=
  ((List.range id).filter kept.contains).map tableAlias

theorem keptBelow_succ (kept : List TableId) (id : TableId) :
    keptBelow kept (id + 1) =
      keptBelow kept id ++ if kept.contains id then [tableAlias id] else [] := by
  rw [keptBelow, List.range_succ, List.filter_append, List.map_append]
  by_cases hid : kept.contains id
  · rw [if_pos hid, List.filter_cons_of_pos hid]
    rfl
  · rw [if_neg hid, List.filter_cons_of_neg hid]
    rfl

/-- The kept joins introduce their tables after the kept ones before them. -/
theorem addsSources_joinClauses {kept : List TableId} {js : List Join} {id : TableId}
    {f : Fragment} {n n' : Nat} (h : (a.joinClauses kept id js).run n = .ok (f, n'))
    (hcond : ∀ i j on, js[i]? = some j → j.on? = some on → id + i ∈ kept →
      ∀ c ∈ Term.columns on, R (a.writer.reference c) ∧
        c.tableAlias ∈ keptBelow kept (id + i + 1)) :
    ∃ names, AddsSources R (keptBelow kept id) f names ∧
      keptBelow kept (id + js.length) = keptBelow kept id ++ names := by
  induction js generalizing id f n n' with
  | nil =>
    obtain ⟨rfl, -⟩ := Assembly.run_pure_eq_ok_iff.mp h
    exact ⟨[], addsSources_nil, (List.append_nil _).symm⟩
  | cons j js ih =>
    -- Seen from the next table, every place is one less.
    have hrest : ∀ i j on, js[i]? = some j → j.on? = some on → id + 1 + i ∈ kept →
        ∀ c ∈ Term.columns on, R (a.writer.reference c) ∧
          c.tableAlias ∈ keptBelow kept (id + 1 + i + 1) := by
      intro i j' on hj
      rw [Nat.add_assoc id, Nat.add_comm 1]
      exact hcond (i + 1) j' on hj
    have hlength : id + (j :: js).length = id + 1 + js.length := by
      rw [List.length_cons, Nat.add_right_comm, Nat.add_assoc]
    rw [hlength]
    have hsucc := keptBelow_succ kept id
    obtain ⟨clause, n₁, rest, hclause, hjoins, rfl⟩ := joinClauses_run_cons_eq_ok h
    obtain ⟨names, hnames, heq⟩ := ih hjoins hrest
    obtain ⟨hkept, hclause⟩ | ⟨hkept, rfl, -⟩ := hclause
    · rw [if_pos hkept] at hsucc
      rw [hsucc] at hnames heq
      have hjoin : AddsSources R (keptBelow kept id) clause [tableAlias id] := by
        refine addsSources_joinClause hclause fun on hon c hc => ?_
        rw [← hsucc]
        exact hcond 0 j on rfl hon (List.contains_iff_mem.mp hkept) c hc
      refine ⟨_, hjoin.append hnames, ?_⟩
      rw [heq, List.append_assoc]
    · rw [if_neg (Bool.eq_false_iff.mp hkept), List.append_nil] at hsucc
      rw [hsucc] at hnames heq
      exact ⟨names, hnames, heq⟩

/-! ### Lists of columns -/

theorem isQuiet_joined {fs : List Fragment} (hfs : ∀ f ∈ fs, IsQuiet R f) :
    IsQuiet R (Fragment.joined fs .comma) :=
  (closed_isQuiet R).joined hfs

theorem IsQuiet.named {f : Fragment} (h : IsQuiet R f) (name : String) :
    IsQuiet R (f.named name) := by
  obtain ⟨ns, hnests, hquiet⟩ := h
  have hname : Quiet R [.chunk (.token .as_), .chunk (.ident name)] :=
    (quiet_chunk (by simp) rfl).append (quiet_chunk (by simp) rfl)
  exact ⟨_, hnests.named name, hquiet.append hname⟩

theorem IsQuiet.exists_select {f : Fragment} (h : IsQuiet R f) :
    ∃ ns, Nests (.token .select :: f) (.chunk (.token .select) :: ns) ∧ Quiet R ns := by
  obtain ⟨ns, hnests, hquiet⟩ := h
  exact ⟨ns, (nests_tokens [.select] rfl).append hnests, hquiet⟩

theorem isQuiet_columns {w : TermWriter} {cs : List ColumnRef}
    (h : ∀ c ∈ cs, R (w.reference c)) :
    IsQuiet R (Fragment.joined (cs.map w.column) .comma) := by
  refine isQuiet_joined fun f hf => ?_
  obtain ⟨c, hc, rfl⟩ := List.mem_map.mp hf
  exact TermWriter.isQuiet_column (h c hc)

end Assembler

/-! ### The statement -/

namespace Stages

variable {st : Stages} {engine : Engine} {R : Reference → Prop} {w : TermWriter}

/-- What an output, an ordering key, a group key or a selected row number reads. -/
structure Allows (st : Stages) (engine : Engine) (w : TermWriter) (R : Reference → Prop) :
    Prop where
  /-- The outputs. -/
  outputs : ∀ o ∈ st.draft.outputs, ∀ c ∈ Term.columns o.value, R (w.reference c)
  /-- The ordering keys. -/
  order : ∀ key ∈ st.statement.order, ∀ c ∈ Term.columns key.1, R (w.reference c)
  /-- The group keys. -/
  keys : ∀ c ∈ (st.assembler engine).keysOf st.outputs st.draft, R (w.reference c)
  /-- The row numbers. -/
  rowIds : ∀ t ∈ st.draft.rowIdTables, R (w.reference (rowIdRef t))
  /-- The markers. -/
  markers : ∀ m ∈ w.markers?.getD [], R ⟨derivedTable, m.name⟩

/-- The selected columns. -/
theorem Allows.projection (h : st.Allows engine w R) :
    ∃ ns, Nests (Assembler.projection w st.draft) (.chunk (.token .select) :: ns) ∧ Quiet R ns := by
  refine Assembler.IsQuiet.exists_select (Assembler.isQuiet_joined fun f hf => ?_)
  rcases List.mem_append.mp hf with hf | hf
  · obtain ⟨o, ho, rfl⟩ := List.mem_map.mp hf
    exact Assembler.IsQuiet.named (TermWriter.isQuiet_term h.markers (h.outputs o ho)) o.name
  · obtain ⟨⟨name, t⟩, ht, rfl⟩ := List.mem_map.mp hf
    have ht : t ∈ st.draft.rowIdTables := (List.of_mem_zip ht).2
    exact Assembler.IsQuiet.named (TermWriter.isQuiet_column (h.rowIds t ht)) name

theorem isQuiet_by : IsQuiet R [.token .by_] :=
  ⟨_, nests_tokens [.by_] rfl, quiet_chunk (by simp) rfl⟩

/-- The ordering by keys and row numbers. -/
theorem Allows.ordering (h : st.Allows engine w R) :
    ∃ f, IsQuiet R f ∧ (st.assembler engine).ordering w st.draft = .token .order :: f := by
  refine ⟨_, (closed_isQuiet R).append isQuiet_by (Assembler.isQuiet_joined fun f hf => ?_), rfl⟩
  rcases List.mem_append.mp hf with hf | hf
  · obtain ⟨⟨key, direction⟩, hkey, rfl⟩ := List.mem_map.mp hf
    have hdirection : IsQuiet R [.token (Assembler.directionToken direction)] := by
      cases direction with
      | asc => exact ⟨_, nests_tokens [.asc] rfl, quiet_chunk (by simp) rfl⟩
      | desc => exact ⟨_, nests_tokens [.desc] rfl, quiet_chunk (by simp) rfl⟩
    exact (closed_isQuiet R).append (TermWriter.isQuiet_term h.markers (h.order _ hkey))
      hdirection
  · obtain ⟨l, -, rfl⟩ := List.mem_map.mp hf
    refine TermWriter.isQuiet_column (h.rowIds _ ?_)
    cases hl : st.draft.rowIdTables[l.rowId]? with
    | some t => exact List.mem_of_getElem? hl
    | none =>
      -- A level without a row number would be ordered by that of the primary table.
      obtain ⟨p, hp, hzero⟩ := st.draft_collects.root
      refine st.draft_collects.lineage p hp 0 ?_
      rw [← hzero]
      exact List.mem_of_mem_head? (st.draft_collects.head p hp)

theorem isQuiet_paging (engine : Engine) (skip? take? : Option Nat) :
    IsQuiet R ((engine.paging skip? take?).getD []) :=
  (closed_isQuiet R).paging (fun text n => ⟨_, (nests_raw text).append (nests_number n),
    (quiet_chunk (by simp) rfl).append (quiet_chunk (by simp) rfl)⟩) engine skip? take?

/-- The clauses behind the tables. -/
theorem Allows.trailing (h : st.Allows engine w R) (before : List String) :
    AddsSources R before
      (Assembler.groupClause w st.outputs ((st.assembler engine).keysOf st.outputs st.draft)
        ++ ((st.assembler engine).ordering w st.draft
          ++ (engine.paging st.statement.skip? st.statement.take?).getD [])) [] := by
  have hgroup : AddsSources R before
      (Assembler.groupClause w st.outputs
        ((st.assembler engine).keysOf st.outputs st.draft)) [] := by
    unfold Assembler.groupClause
    split
    · exact addsSources_token (t := .group) rfl (by simp) (by simp) (by simp)
        ((closed_isQuiet R).append isQuiet_by (Assembler.isQuiet_columns h.keys))
    · exact addsSources_nil
  obtain ⟨keys, hkeys, hordering⟩ := h.ordering
  refine hgroup.append ?_
  rw [hordering, List.append_nil]
  exact addsSources_token (t := .order) rfl (by simp) (by simp) (by simp)
    ((closed_isQuiet R).append hkeys (isQuiet_paging engine _ _))

/-- The reference is one to a kept table. -/
def IsRead (st : Stages) (r : Reference) : Prop :=
  r.table ∈ st.kept.map tableAlias

theorem isRead_of_isKept {c : ColumnRef} (h : c.IsKept st.kept) :
    st.IsRead ⟨c.tableAlias, c.column⟩ := by
  show c.tableAlias ∈ st.kept.map tableAlias
  rw [h.tableAlias_eq]
  exact List.mem_map_of_mem h.table_mem

theorem keptBelow_tableIds (st : Stages) :
    Assembler.keptBelow st.kept (st.statement.joins.length + 1) = st.kept.map tableAlias := by
  have hids : List.range (st.statement.joins.length + 1) = st.statement.tableIds := by
    rw [Statement.tableIds, Statement.sources, List.length_cons, List.length_map]
  rw [Assembler.keptBelow, hids, kept, Statement.filter_contains_kept]

/-- **The tables behind `FROM`** are the kept ones, and their conditions are settled. -/
theorem addsSources_sources (hst : st.IsChecked) {f : Fragment} {n n' : Nat}
    (h : ((st.assembler engine).sources st.kept).run n = .ok (f, n')) :
    AddsSources st.IsRead [] ([.token .from_] ++ f) (st.kept.map tableAlias) := by
  obtain ⟨primary, n₁, joins, hprimary, hjoins, hfilter⟩ := Assembler.sources_run_eq_ok h
  have hzero : 0 ∈ st.kept :=
    Statement.mem_kept_iff.mpr (.fixed st.statement.zero_mem_tableIds rfl)
  have hone : Assembler.keptBelow st.kept 1 = [tableAlias 0] := by
    rw [Assembler.keptBelow_succ, if_pos (List.contains_iff_mem.mpr hzero)]
    rfl
  -- The primary table is always kept, so `FROM` introduces it first.
  have hfirst : AddsSources st.IsRead [] ([.token .from_] ++ primary) [tableAlias 0] := by
    obtain ⟨rows, hrows, hsource⟩ := engine.nests_tableSource st.statement.primary.table.name
      (tableAlias 0) n
    rw [Assembler.draw_run_eq_ok hprimary]
    have hclause : Clause st.IsRead [] _ [⟨tableAlias 0, rows⟩] (queries [.group rows]) :=
      clause_from (isQuery_of_isTableSource hsource) (tableAlias 0)
    rw [queries_tableSource hsource] at hclause
    exact ⟨_, _, (nests_tokens [.from_] rfl).append hrows, hclause, rfl,
      List.forall_mem_singleton.mpr hsource⟩
  -- A condition reads kept tables, and none that is joined later.
  have hcond : ∀ i j on, st.statement.joins[i]? = some j → j.on? = some on → 1 + i ∈ st.kept →
      ∀ c ∈ Term.columns on, st.IsRead ((st.assembler engine).writer.reference c) ∧
        c.tableAlias ∈ Assembler.keptBelow st.kept (1 + i + 1) := by
    intro i j on hj hon hkept c hc
    rw [Nat.add_comm 1 i] at hkept ⊢
    have hjoin : st.statement.join? (i + 1) = some j := hj
    obtain ⟨hc, hle⟩ := isKept_of_condition hst hjoin hon hkept hc
    refine ⟨isRead_of_isKept hc, ?_⟩
    rw [hc.tableAlias_eq]
    refine List.mem_map_of_mem
      (List.mem_filter.mpr ⟨List.mem_range.mpr (Nat.lt_succ_of_le hle), ?_⟩)
    exact List.contains_iff_mem.mpr hc.table_mem
  obtain ⟨names, hnames, heq⟩ := Assembler.addsSources_joinClauses hjoins hcond
  have hall : AddsSources st.IsRead [] ([.token .from_] ++ primary ++ joins)
      (st.kept.map tableAlias) := by
    have heq : Assembler.keptBelow st.kept (1 + st.statement.joins.length) =
        Assembler.keptBelow st.kept 1 ++ names := heq
    rw [← keptBelow_tableIds, Nat.add_comm, heq, hone]
    rw [hone] at hnames
    exact hfirst.append hnames
  obtain ⟨-, rfl⟩ | ⟨filter, hfilter, rfl⟩ := hfilter
  · rwa [List.append_assoc] at hall
  · have hquiet : IsQuiet st.IsRead ((st.assembler engine).writer.term filter) :=
      TermWriter.isQuiet_term nofun fun c hc => isRead_of_isKept (isKept_of_filter hst hfilter hc)
    have hwhere : AddsSources st.IsRead ([] ++ st.kept.map tableAlias)
        (.token .where_ :: (st.assembler engine).writer.term filter) [] :=
      addsSources_token rfl (by simp) (by simp) (by simp) hquiet
    have hwhole := hall.append hwhere
    rw [List.append_nil] at hwhole
    rw [List.append_assoc, List.append_assoc] at hwhole ⊢
    exact hwhole

/-! ### The derived table -/

/-- The fragment gives names to columns. -/
def Selects (R : Reference → Prop) (f : Fragment) (names : List String) : Prop :=
  ∃ ns, Nests f ns ∧ Quiet R ns ∧ Exports ns names

theorem selects_named {f : Fragment} {ns : List SqlNode} (hnests : Nests f ns) (hquiet : Quiet R ns)
    (has : ∀ n ∈ ns, n.isToken .as_ = false) (name : String) :
    Selects R (f.named name) [name] := by
  have hname : Quiet R [.chunk (.token .as_), .chunk (.ident name)] :=
    (quiet_chunk (by simp) rfl).append (quiet_chunk (by simp) rfl)
  exact ⟨_, hnests.named name, hquiet.append hname, (exports_of_forall has).named name⟩

theorem selects_joined {fs : List Fragment} {names : List String}
    (h : List.Forall₂ (fun f name => Selects R f [name]) fs names) :
    Selects R (Fragment.joined fs .comma) names := by
  have hcomma : Exports [.chunk (.token .comma)] [] := exports_of_forall (by simp [SqlNode.isToken])
  rw [Fragment.joined]
  induction h with
  | nil => exact ⟨[], nests_nil, quiet_nil, exports_nil⟩
  | cons hf hfs ih =>
    obtain ⟨ns, hnests, hquiet, hexports⟩ := hf
    obtain ⟨ms, hnests', hquiet', hexports'⟩ := ih
    cases hfs with
    | nil =>
      rw [List.intercalate_singleton]
      exact ⟨ns, hnests, hquiet, hexports⟩
    | cons hg hgs =>
      rw [List.intercalate_cons_cons]
      have hall := (hexports.append hcomma).append hexports'
      rw [List.append_nil] at hall
      exact ⟨_, (hnests.append (nests_tokens [.comma] rfl)).append hnests',
        (hquiet.append (quiet_chunk (by simp) rfl)).append hquiet', hall⟩

theorem selects_column {c : ColumnRef} (h : R (w.reference c)) (name : String) :
    Selects R (Fragment.named (w.column c) name) [name] :=
  selects_named (w.nests_column c) (quiet_qualified h) (by simp [SqlNode.isToken]) name

theorem selects_markerColumn {a : Assembler} {keys : List ColumnRef} {m : Marker}
    (h : ∀ c ∈ Assembler.partition keys m, R (a.writer.reference c)) :
    Selects R (a.markerColumn keys m) [m.name] := by
  obtain ⟨ns, hnests, hquiet⟩ := Assembler.isQuiet_columns h
  have hcall := (nests_function "ROW_NUMBER").append nests_nil.parens
  have hpartition := ((nests_raw "PARTITION BY").append hnests).parens
  have hfunction : Quiet R [.chunk (.function "ROW_NUMBER")] := quiet_chunk (by simp) rfl
  have hover : Quiet R [.chunk (.token .over_)] := quiet_chunk (by simp) rfl
  have hraw : Quiet R [.chunk (.raw "PARTITION BY")] := quiet_chunk (by simp) rfl
  exact selects_named ((hcall.append (nests_tokens [.over_] rfl)).append hpartition)
    (((hfunction.append quiet_nil.group).append hover).append (hraw.append hquiet).group)
    (by simp [SqlNode.isToken]) m.name

/-- The markers of a statement, before they are numbered. -/
theorem exists_needed_of_markers {kept : List TableId} {ms : List Marker}
    (h : (st.assembler engine).markers kept st.draft = .ok ms) :
    ∃ needed : List (List TableId),
      ms = needed.eraseDups.zipIdx.map (fun x => ⟨s!"##d{x.2}", x.1⟩) ∧
      ∀ tables ∈ needed, ∃ p ∈ st.draft.outputs, ∃ x ∈ p.value.aggregates,
        (st.assembler engine).markedTables? kept st.draft.rowIdTables x.1 x.2 = some tables := by
  unfold Assembler.markers at h
  simp only at h
  split at h
  · cases h
  · refine ⟨_, (Except.ok.inj h).symm, fun tables htables => ?_⟩
    obtain ⟨p, hp, htables⟩ := List.mem_flatMap.mp htables
    obtain ⟨x, hx, hmarked⟩ := List.mem_filterMap.mp htables
    exact ⟨p, hp, x, hx, hmarked⟩

/-- What the markers of a statement are: numbered, each for tables that an output reads. -/
theorem markers_eq_ok {kept : List TableId} {ms : List Marker}
    (h : (st.assembler engine).markers kept st.draft = .ok ms) :
    ms.map Marker.name = (List.range ms.length).map (fun i => s!"##d{i}") ∧
      ∀ m ∈ ms, ∀ t ∈ m.tables, ∃ o ∈ st.outputs, t ∈ Term.neededTables o.value := by
  obtain ⟨needed, rfl, hneeded⟩ := exists_needed_of_markers h
  constructor
  · rw [List.length_map, List.length_zipIdx, List.map_map, List.range_eq_range',
      ← List.zipIdx_map_snd 0, List.map_map]
    rfl
  · intro m hm t ht
    obtain ⟨⟨tables, i⟩, hx, rfl⟩ := List.mem_map.mp hm
    obtain ⟨p, hp, ⟨function, operand⟩, hx, hmarked⟩ :=
      hneeded tables (List.mem_eraseDups.mp (List.fst_mem_of_mem_zipIdx hx))
    obtain ⟨o, ho, hvalue⟩ := Draft.exists_of_mem_ofMapping hp
    -- The tables of a marker are all that its aggregate reads.
    have hread : tables = Term.readTables operand := by
      unfold Assembler.markedTables? at hmarked
      simp only at hmarked
      split at hmarked
      · exact (Option.some.inj hmarked).symm
      · cases hmarked
    refine ⟨o, ho, ?_⟩
    rw [hvalue]
    exact Term.readTables_subset_of_mem_aggregates hx (hread ▸ ht)

/-! ### Names in the derived table -/

theorem toList_tableAlias (t : TableId) : (tableAlias t).toList = 't' :: Nat.toDigits 10 t := by
  show (toString "t" ++ toString t).toList = _
  rw [String.toList_append, Nat.toString_eq_ofList_toDigits, String.toList_ofList]
  rfl

/-- The name of a table in a statement has no point. -/
theorem dot_notMem_tableAlias (t : TableId) : '.' ∉ (tableAlias t).toList := by
  rw [toList_tableAlias]
  intro hmem
  rcases List.mem_cons.mp hmem with h | h
  · exact absurd h (by decide)
  · exact absurd (Nat.isDigit_of_mem_toDigits (by decide) (by decide) h) (by decide)

/-- What stands before the first point is decided by the whole. -/
theorem eq_of_append_dot {a b x y : List Char} (ha : '.' ∉ a) (hb : '.' ∉ b)
    (h : a ++ '.' :: x = b ++ '.' :: y) : a = b ∧ x = y := by
  have htake : ∀ {a x : List Char}, '.' ∉ a → (a ++ '.' :: x).takeWhile (· != '.') = a := by
    intro a x ha
    rw [List.takeWhile_append_of_pos, List.takeWhile_cons_of_neg (by decide), List.append_nil]
    intro c hc
    exact bne_iff_ne.mpr fun heq => ha (heq ▸ hc)
  have hab : a = b := by rw [← htake ha, h, htake hb]
  subst hab
  exact ⟨rfl, (List.cons.inj (List.append_cancel_left h)).2⟩

/-- Columns of tables of the statement have different names in the derived table. -/
theorem derivedName_injective {c c' : ColumnRef} (hc : c.tableAlias = tableAlias c.table)
    (hc' : c'.tableAlias = tableAlias c'.table) (h : derivedName c = derivedName c') : c = c' := by
  have hchars := congrArg String.toList h
  rw [derivedName, derivedName, hc, hc'] at hchars
  simp only [String.toList_append, List.append_assoc] at hchars
  obtain ⟨halias, hcolumn⟩ := eq_of_append_dot (dot_notMem_tableAlias _) (dot_notMem_tableAlias _)
    hchars
  have htable : c.table = c'.table := tableAlias_injective (String.toList_inj.mp halias)
  obtain ⟨t, a, n⟩ := c
  obtain ⟨t', a', n'⟩ := c'
  obtain rfl : t = t' := htable
  obtain rfl : a = a' := hc.trans hc'.symm
  obtain rfl : n = n' := String.toList_inj.mp hcolumn
  rfl

theorem markerName_injective {i j : Nat} (h : s!"##d{i}" = s!"##d{j}") : i = j :=
  eq_of_append_toString "##d" h

/-- The name of a column starts like the name of its table, not like that of a marker. -/
theorem derivedName_ne_markerName {kept : List TableId} {c : ColumnRef} (hc : c.IsKept kept)
    (i : Nat) : derivedName c ≠ s!"##d{i}" := by
  intro h
  have hmarker : (s!"##d{i}").toList.head? = some '#' := by
    show (toString "##d" ++ toString i).toList.head? = some '#'
    rw [String.toList_append]
    rfl
  rw [← h, derivedName, hc.tableAlias_eq, String.toList_append, String.toList_append,
    toList_tableAlias] at hmarker
  exact absurd (Option.some.inj hmarker) (by decide)

/-- The names that the derived table gives. -/
def derivedNames (st : Stages) (engine : Engine) (ms : List Marker) : List String :=
  ((st.assembler engine).derivedColumns st.draft
    ((st.assembler engine).keysOf st.outputs st.draft)).map derivedName ++ ms.map Marker.name

theorem isKept_of_mem_keysOf (hst : st.IsChecked) {c : ColumnRef}
    (hc : c ∈ (st.assembler engine).keysOf st.outputs st.draft) : c.IsKept st.kept := by
  unfold Assembler.keysOf at hc
  split at hc
  · exact isKept_of_mem_groupKeys hst hc
  · exact absurd hc List.not_mem_nil

theorem isKept_of_mem_draft (hst : st.IsChecked) {p : Projected} (hp : p ∈ st.draft.outputs)
    {c : ColumnRef} (hc : c ∈ Term.columns p.value) : c.IsKept st.kept := by
  obtain ⟨o, ho, hvalue⟩ := Draft.exists_of_mem_ofMapping hp
  exact isKept_of_mem_outputs hst ho (hvalue ▸ hc)

/-- What the derived table hands on. -/
theorem mem_derivedColumns {c : ColumnRef} :
    c ∈ (st.assembler engine).derivedColumns st.draft
        ((st.assembler engine).keysOf st.outputs st.draft) ↔
      (∃ p ∈ st.draft.outputs, c ∈ Term.columns p.value) ∨
      (∃ key ∈ st.statement.order, c ∈ Term.columns key.1) ∨
      c ∈ (st.assembler engine).keysOf st.outputs st.draft ∨
      ∃ t ∈ st.draft.rowIdTables, rowIdRef t = c := by
  rw [Assembler.derivedColumns, List.mem_eraseDups, List.mem_append, List.mem_append,
    List.mem_append, List.mem_flatMap, List.mem_flatMap, List.mem_map, or_assoc, or_assoc]
  rfl

/-- The derived table hands on kept columns. -/
theorem isKept_of_mem_derivedColumns (hst : st.IsChecked) {c : ColumnRef}
    (hc : c ∈ (st.assembler engine).derivedColumns st.draft
      ((st.assembler engine).keysOf st.outputs st.draft)) : c.IsKept st.kept := by
  rcases mem_derivedColumns.mp hc with ⟨p, hp, hc⟩ | ⟨key, hkey, hc⟩ | hc | ⟨t, ht, rfl⟩
  · exact isKept_of_mem_draft hst hp hc
  · exact isKept_of_order hst hkey hc
  · exact isKept_of_mem_keysOf hst hc
  · exact isKept_rowIdRef hst ht

theorem nodup_derivedNames (hst : st.IsChecked) {ms : List Marker}
    (hms : (st.assembler engine).markers st.kept st.draft = .ok ms) :
    (st.derivedNames engine ms).Nodup := by
  have hnames := (markers_eq_ok hms).1
  rw [derivedNames, hnames, List.nodup_append]
  -- Columns differ from columns, markers from markers, and columns from markers.
  refine ⟨?_, ?_, ?_⟩
  · refine List.Nodup.map_on (fun c hc c' hc' => ?_) (nodup_eraseDups _)
    exact derivedName_injective (isKept_of_mem_derivedColumns hst hc).tableAlias_eq
      (isKept_of_mem_derivedColumns hst hc').tableAlias_eq
  · exact List.Nodup.map_on (fun i _ j _ => markerName_injective) List.nodup_range
  · intro name hname name' hname'
    obtain ⟨c, hc, rfl⟩ := List.mem_map.mp hname
    obtain ⟨i, -, rfl⟩ := List.mem_map.mp hname'
    exact derivedName_ne_markerName (isKept_of_mem_derivedColumns hst hc) i

/-! ### The levels -/

/-- Without a derived table, the statement refers to kept tables. -/
theorem allows_of_flat (hst : st.IsChecked) (hw : w.markers? = none) :
    st.Allows engine w st.IsRead := by
  have href : ∀ c : ColumnRef, c.IsKept st.kept → st.IsRead (w.reference c) := by
    intro c hc
    rw [TermWriter.reference, hw]
    exact isRead_of_isKept hc
  refine ⟨fun p hp c hc => href c (isKept_of_mem_draft hst hp hc),
    fun key hkey c hc => href c (isKept_of_order hst hkey hc),
    fun c hc => href c (isKept_of_mem_keysOf hst hc),
    fun t ht => href _ (isKept_rowIdRef hst ht), ?_⟩
  rw [hw]
  nofun

/-- Around a derived table, the statement refers to the names that this gives. -/
theorem allows_of_derived {ms : List Marker} (hw : w.markers? = some ms) :
    st.Allows engine w fun r => r.table = derivedTable ∧ r.column ∈ st.derivedNames engine ms := by
  have href : ∀ c ∈ (st.assembler engine).derivedColumns st.draft
      ((st.assembler engine).keysOf st.outputs st.draft), (w.reference c).table = derivedTable ∧
        (w.reference c).column ∈ st.derivedNames engine ms := by
    intro c hc
    rw [TermWriter.reference, hw]
    exact ⟨rfl, List.mem_append_left _ (List.mem_map_of_mem hc)⟩
  refine ⟨fun p hp c hc => href c (mem_derivedColumns.mpr (.inl ⟨p, hp, hc⟩)),
    fun key hkey c hc => href c (mem_derivedColumns.mpr (.inr (.inl ⟨key, hkey, hc⟩))),
    fun c hc => href c (mem_derivedColumns.mpr (.inr (.inr (.inl hc)))),
    fun t ht => href _ (mem_derivedColumns.mpr (.inr (.inr (.inr ⟨t, ht, rfl⟩)))),
    fun m hm => ⟨rfl, ?_⟩⟩
  rw [hw] at hm
  exact List.mem_append_right _ (List.mem_map_of_mem hm)

/-- The parts of a statement make up a level, whatever its rows come from. -/
theorem Allows.exists_level (h : st.Allows engine w R) {source : Fragment} {ns : List SqlNode}
    {is : List Introduction} {qs : List (List SqlNode)}
    (hnests : Nests ([.token .from_] ++ source) ns) (hclause : Clause R [] ns is qs) :
    ∃ level, Nests (Assembler.projection w st.draft ++ [.token .from_] ++ source
        ++ Assembler.groupClause w st.outputs ((st.assembler engine).keysOf st.outputs st.draft)
        ++ (st.assembler engine).ordering w st.draft
        ++ (engine.paging st.statement.skip? st.statement.take?).getD []) level ∧
      IsLevel R level is qs := by
  obtain ⟨columns, hcolumns, hquiet⟩ := h.projection
  obtain ⟨ms, js, hnests', hclause', hjs, -⟩ := h.trailing ([] ++ is.map Introduction.name)
  obtain rfl : js = [] := List.map_eq_nil_iff.mp hjs
  have hlevel := isLevel_of_clauses hquiet (hclause.append hclause')
  rw [List.append_nil, List.append_nil] at hlevel
  refine ⟨_, ?_, hlevel⟩
  have hall := hcolumns.append (hnests.append hnests')
  simp only [List.append_assoc] at hall ⊢
  exact hall

/-- The level introduces the kept tables and reads only these. -/
structure IsKeptLevel (st : Stages) (ns : List SqlNode) (is : List Introduction) : Prop where
  /-- The level. -/
  level : IsLevel st.IsRead ns is []
  /-- The names. -/
  names : is.map Introduction.name = st.kept.map tableAlias
  /-- What the names stand for. -/
  sources : ∀ i ∈ is, isTableSource i.rows

theorem derivedTable_ne_tableAlias (t : TableId) : derivedTable ≠ tableAlias t := by
  intro h
  have hchars : derivedTable.toList.head? = some 't' := by
    rw [h, toList_tableAlias]
    rfl
  exact absurd hchars (by decide)

section

variable {ns : List SqlNode} {is : List Introduction}

theorem IsKeptLevel.introduced_eq (h : st.IsKeptLevel ns is) :
    introduced ns = st.kept.map tableAlias := by
  rw [introduced, h.level.introductions, h.names]

theorem IsKeptLevel.inScope (h : st.IsKeptLevel ns is) : InScope ns where
  references r hr := h.introduced_eq ▸ h.level.references r hr
  conditions := h.level.conditions
  exports r hr htable := by
    obtain ⟨t, -, ht⟩ := List.mem_map.mp (h.level.references r hr)
    exact absurd (htable.symm.trans ht.symm) (derivedTable_ne_tableAlias t)

/-- The level is not a table source: it reads from other queries. -/
theorem IsKeptLevel.isTableSource_eq_false (h : st.IsKeptLevel ns is) :
    isTableSource ns = false := by
  by_contra hsource
  rw [Bool.not_eq_false] at hsource
  obtain ⟨i, hi, hrows⟩ := exists_introduction_of_isTableSource hsource
  have hrows' := h.sources i (h.level.introductions ▸ hi)
  rw [hrows] at hrows'
  exact absurd hrows' Bool.false_ne_true

end

/-- **Without a derived table** there is one level. -/
theorem exists_flat_level (hst : st.IsChecked) (hw : w.markers? = none) {source : Fragment}
    {n n' : Nat} (hsource : ((st.assembler engine).sources st.kept).run n = .ok (source, n')) :
    ∃ level is, Nests (Assembler.projection w st.draft ++ [.token .from_] ++ source
        ++ Assembler.groupClause w st.outputs ((st.assembler engine).keysOf st.outputs st.draft)
        ++ (st.assembler engine).ordering w st.draft
        ++ (engine.paging st.statement.skip? st.statement.take?).getD []) level ∧
      st.IsKeptLevel level is := by
  obtain ⟨ns, is, hnests, hclause, hnames, hsources⟩ := addsSources_sources hst hsource
  obtain ⟨level, hlevel, hislevel⟩ := (allows_of_flat hst hw).exists_level hnests hclause
  exact ⟨level, is, hlevel, hislevel, hnames, hsources⟩

/-- The query of the derived table is such a level, and selects the names that are handed on. -/
theorem exists_derived_rows (hst : st.IsChecked) {ms : List Marker}
    (hms : (st.assembler engine).markers st.kept st.draft = .ok ms) {rows : Fragment} {n n' : Nat}
    (hrows : ((st.assembler engine).derivedRows st.kept st.draft
      ((st.assembler engine).keysOf st.outputs st.draft) ms).run n = .ok (rows, n')) :
    ∃ ns is, Nests rows ns ∧ isQuery ns ∧ exports ns = st.derivedNames engine ms ∧
      st.IsKeptLevel ns is := by
  obtain ⟨source, hsource, rfl⟩ := Assembler.derivedRows_run_eq_ok hrows
  obtain ⟨ns, is, hnests, hclause, hnames, hsources⟩ := addsSources_sources hst hsource
  have href : ∀ c : ColumnRef, c.IsKept st.kept →
      st.IsRead ((st.assembler engine).writer.reference c) := fun c => isRead_of_isKept
  -- A marker is partitioned by the group keys and by row numbers of tables that an output reads.
  have hmarker : ∀ m ∈ ms, Selects st.IsRead ((st.assembler engine).markerColumn
      ((st.assembler engine).keysOf st.outputs st.draft) m) [m.name] := by
    intro m hm
    refine selects_markerColumn fun c hc => href c ?_
    rw [Assembler.partition, List.mem_eraseDups, List.mem_append] at hc
    rcases hc with hc | hc
    · exact isKept_of_mem_keysOf hst hc
    · obtain ⟨t, ht, rfl⟩ := List.mem_map.mp hc
      obtain ⟨o, ho, hneeded⟩ := (markers_eq_ok hms).2 m hm t ht
      exact ⟨rfl, mem_kept_of_mem_outputs hst ho hneeded⟩
  have hcolumns : Selects st.IsRead ((st.assembler engine).derivedSelection st.draft
      ((st.assembler engine).keysOf st.outputs st.draft) ms) (st.derivedNames engine ms) := by
    refine selects_joined (List.rel_append ?_ ?_)
    · rw [List.forall₂_map_left_iff, List.forall₂_map_right_iff, List.forall₂_same]
      exact fun c hc => selects_column (href c (isKept_of_mem_derivedColumns hst hc)) _
    · rw [List.forall₂_map_left_iff, List.forall₂_map_right_iff, List.forall₂_same]
      exact hmarker
  obtain ⟨columns, hcolumns, hquiet, hexports⟩ := hcolumns
  have hselect : Nests [.token .select] [.chunk (.token .select)] := nests_tokens [.select] rfl
  refine ⟨.chunk (.token .select) :: columns ++ ns, is, ?_, rfl, ?_,
    isLevel_of_clauses hquiet hclause, hnames, hsources⟩
  · have hall := (hselect.append hcolumns).append hnests
    rw [← List.append_assoc] at hall
    exact hall
  · exact exports_eq hexports hquiet.clause (by rw [hnests.head?_eq (by simp) (by simp)]; rfl)

/-- **With a derived table** there are two levels: the one in the derived table, which introduces
the kept tables, and the one around it. -/
theorem exists_derived_levels (hst : st.IsChecked) {ms : List Marker}
    (hms : (st.assembler engine).markers st.kept st.draft = .ok ms) (hw : w.markers? = some ms)
    {rows : Fragment} {n n' : Nat}
    (hrows : ((st.assembler engine).derivedRows st.kept st.draft
      ((st.assembler engine).keysOf st.outputs st.draft) ms).run n = .ok (rows, n')) :
    ∃ level ns is, Nests (Assembler.projection w st.draft ++ [.token .from_]
        ++ Fragment.named rows.parens derivedTable
        ++ Assembler.groupClause w st.outputs ((st.assembler engine).keysOf st.outputs st.draft)
        ++ (st.assembler engine).ordering w st.draft
        ++ (engine.paging st.statement.skip? st.statement.take?).getD []) level ∧
      levels level = [level, ns] ∧ introduced level = [derivedTable] ∧ InScope level ∧
      st.IsKeptLevel ns is := by
  obtain ⟨ns, is, hnests, hquery, hexports, hkept⟩ := exists_derived_rows hst hms hrows
  have hfrom := (nests_tokens [.from_] rfl).append (hnests.parens.named derivedTable)
  -- The derived table is a query of its own, and has none inside but table sources.
  have hqueries : queries [.group ns] = [ns] := by
    show (if isTableSource ns then [] else (if isQuery ns then [ns] else []) ++ queries ns) ++ [] =
      [ns]
    rw [hkept.isTableSource_eq_false, hquery, hkept.level.queries]
    rfl
  have hallows : st.Allows engine w
      fun r => r.table = derivedTable ∧ r.column ∈ st.derivedNames engine ms :=
    allows_of_derived hw
  obtain ⟨level, hlevel, hislevel⟩ := hallows.exists_level hfrom (clause_from hquery derivedTable)
  have hintroduced : introduced level = [derivedTable] := by
    rw [introduced, hislevel.introductions]
    rfl
  refine ⟨level, ns, is, hlevel, ?_, hintroduced, ⟨fun r hr => ?_, hislevel.conditions,
    fun r hr _ => ?_⟩, hkept⟩
  · rw [levels, hislevel.queries, hqueries]
  · rw [hintroduced, (hislevel.references r hr).1]
    exact List.mem_singleton_self _
  · refine ⟨⟨derivedTable, ns⟩, hislevel.introductions ▸ List.mem_singleton_self _, rfl, ?_⟩
    rw [hexports]
    exact List.count_eq_one_of_mem (nodup_derivedNames hst hms) (hislevel.references r hr).2

theorem nodup_kept_names (hst : st.IsChecked) : (st.kept.map tableAlias).Nodup := by
  have hkept : st.kept.Nodup := (isClosed_kept hst).sorted.imp fun hlt => Nat.ne_of_lt hlt
  exact hkept.map fun _ _ => tableAlias_injective

end Stages

/-- **References are in scope.** The statement of an accepted query is a tree of query levels. It
introduces every kept table exactly once, and every level refers only to what it introduces itself:
in a join condition, to what stands before it; of a derived table, to columns that this selects
exactly once. -/
theorem inScope_compile {settings : Settings} {q : QuerySpec} {mapping : Expr} {query : Query}
    {n n' : Nat} (h : (q.compile settings mapping).run n = .ok (query, n')) :
    ∃ st level, q.stages settings.naming mapping = .ok st ∧ query.sql.nodes = some level ∧
      (∀ ns ∈ levels level, InScope ns) ∧
      ∀ t, ((levels level).flatMap introduced).count (tableAlias t) =
        if t ∈ st.kept then 1 else 0 := by
  obtain ⟨st, assembled, hstages, hassembled, rfl⟩ := QuerySpec.compile_run_eq_ok_iff.mp h
  have hst := Stages.isChecked_of_stages hstages
  obtain ⟨-, -, ms, source, hms, hsource, hsql⟩ := Assembler.assemble_run_eq_ok hassembled
  have hcount : ∀ t, (st.kept.map tableAlias).count (tableAlias t) =
      if t ∈ st.kept then 1 else 0 := by
    intro t
    rw [(Stages.nodup_kept_names hst).count]
    exact if_congr (List.mem_map_of_injective fun _ _ => tableAlias_injective) rfl rfl
  obtain ⟨hempty, hsource⟩ | ⟨hempty, rows, hrows, rfl⟩ := Assembler.rowSource_run_eq_ok hsource
  · -- No aggregate needs a marker, so there is no derived table.
    have hw : ((st.assembler settings.engine).outerWriter ms).markers? = none := if_pos hempty
    obtain ⟨level, is, hlevel, hkept⟩ := Stages.exists_flat_level hst hw hsource
    have hlevels : levels level = [level] := by rw [levels, hkept.level.queries]
    refine ⟨st, level, hstages, hsql ▸ hlevel.nodes_eq, ?_, fun t => ?_⟩
    · rw [hlevels, List.forall_mem_singleton]
      exact hkept.inScope
    · rw [hlevels, List.flatMap_singleton, hkept.introduced_eq, hcount]
  · -- The joined rows stand in a derived table, which is a level of its own.
    have hw : ((st.assembler settings.engine).outerWriter ms).markers? = some ms := if_neg hempty
    obtain ⟨level, ns, is, hlevel, hlevels, hintroduced, hscope, hkept⟩ :=
      Stages.exists_derived_levels hst hms hw hrows
    refine ⟨st, level, hstages, hsql ▸ hlevel.nodes_eq, ?_, fun t => ?_⟩
    · rw [hlevels, List.forall_mem_cons, List.forall_mem_singleton]
      exact ⟨hscope, hkept.inScope⟩
    · rw [hlevels, List.flatMap_cons, List.flatMap_singleton, hintroduced, hkept.introduced_eq,
        List.count_append, hcount, List.count_singleton,
        if_neg (by simpa using Stages.derivedTable_ne_tableAlias t), Nat.zero_add]

/-- Each person's name, the sum of the numbers of their classes, and the number of the students. -/
def summedClasses : Expr :=
  .object [("name", shapeField "person" "name"),
    ("sum", .aggregate .sum
      (.select (.member .row "classes") "c" (.member (.var "c") "id"))),
    ("students", .aggregate .count (.member .row "students"))]

/-- Classes are summed in a derived table, because students repeat them. Both levels are in scope,
and the outer one reads the marker of the classes. -/
theorem inScope_compile_summedClasses :
    ∃ query n' level, (peopleWithStudents.compile {} summedClasses).run 0 = .ok (query, n') ∧
      query.sql.nodes = some level ∧
      (levels level).map introduced = [["##rows"], ["t0", "t1", "t2"]] ∧
      ⟨"##rows", "##d0"⟩ ∈ references level ∧ ∀ ns ∈ levels level, InScope ns := by
  have hrun : ((peopleWithStudents.compile {} summedClasses).run 0).any (fun x =>
      x.1.sql.nodes.any fun level =>
        (levels level).map introduced == [["##rows"], ["t0", "t1", "t2"]] &&
          (references level).contains ⟨"##rows", "##d0"⟩) = true := by decide +kernel
  obtain ⟨⟨query, n'⟩, hquery, hany⟩ := Result.any_eq_true_iff.mp hrun
  obtain ⟨level', hlevel', hshape⟩ := (Option.any_eq_true ..).mp hany
  obtain ⟨st, level, -, hlevel, hscope, -⟩ := inScope_compile hquery
  obtain rfl : level' = level := Option.some.inj (hlevel'.symm.trans hlevel)
  rw [Bool.and_eq_true, beq_iff_eq, List.contains_iff_mem] at hshape
  exact ⟨query, n', level', hquery, hlevel, hshape.1, hshape.2, hscope⟩

end NestedQuery
