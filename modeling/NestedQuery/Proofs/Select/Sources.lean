import NestedQuery.Proofs.Select.Draft
import NestedQuery.Proofs.Select.Kept
import NestedQuery.Proofs.Sql.Reads

/-!
# The tables in the statement

An assembled statement reads from the kept tables, each once and in the order of the statement,
and from no other (`sourceNames_of_assemble`). So a table that the mapping iterates is there, but
a table that it only counts is there just if something requires it (`mem_sourceNames_iff`): a join
that nothing requires is left out, although every row without it counts as one.
-/

namespace NestedQuery

open Fragment

namespace Assembler

variable {a : Assembler}

/-! ### What assembling yields -/

/-- The group keys of a statement, if it is grouped. -/
def keysOf (a : Assembler) (outputs : List (Output Cell)) (d : Draft) : List ColumnRef :=
  if isGrouped outputs then a.groupKeys d else []

/-- The writer of the terms around the joined rows, which reads the derived table if there are
markers. -/
def outerWriter (a : Assembler) (markers : List Marker) : TermWriter :=
  { a.writer with markers? := if markers.isEmpty then none else some markers }

/-- The `GROUP BY` clause, if the statement is grouped. -/
def groupClause (w : TermWriter) (outputs : List (Output Cell)) (keys : List ColumnRef) :
    Fragment :=
  if isGrouped outputs then
    [.token .group, .token .by_] ++ Fragment.joined (keys.map w.column) .comma
  else []

theorem groupClause_of_isGrouped {outputs : List (Output Cell)} (h : isGrouped outputs)
    (w : TermWriter) (keys : List ColumnRef) :
    groupClause w outputs keys =
      [.token .group, .token .by_] ++ Fragment.joined (keys.map w.column) .comma :=
  if_pos h

/-- The joined rows with their markers: the tables themselves, or the derived table. -/
def rowSource (a : Assembler) (kept : List TableId) (d : Draft) (keys : List ColumnRef)
    (markers : List Marker) : Assembly Fragment :=
  if markers.isEmpty then a.sources kept
  else do
    let rows ← a.derivedRows kept d keys markers
    pure (Fragment.named rows.parens derivedTable)

/-- **What an accepted mapping is assembled to.** -/
theorem assemble_run_eq_ok {outputs : List (Output Cell)} {tables : List MappedTable}
    {r : Assembled} {n n' : Nat} (h : (a.assemble outputs tables).run n = .ok (r, n')) :
    let d := Draft.ofMapping a.statement tables outputs
    let kept := a.statement.kept d.neededTables
    let keys := a.keysOf outputs d
    a.checkAggregation outputs tables = .ok () ∧ r.plan = d.plan ∧
      ∃ markers source, a.markers kept d = .ok markers ∧
        (a.rowSource kept d keys markers).run n = .ok (source, n') ∧
        let w := a.outerWriter markers
        r.sql = projection w d ++ [.token .from_] ++ source ++ groupClause w outputs keys
          ++ a.ordering w d ++ (a.engine.paging a.statement.skip? a.statement.take?).getD [] := by
  unfold assemble at h
  obtain ⟨_, n₁, hlift, h⟩ := Assembly.run_bind_eq_ok_iff.mp h
  obtain ⟨hcheck, rfl⟩ := Assembly.run_lift_eq_ok_iff.mp hlift
  obtain ⟨markers, n₂, hlift', h⟩ := Assembly.run_bind_eq_ok_iff.mp h
  obtain ⟨hmarkers, rfl⟩ := Assembly.run_lift_eq_ok_iff.mp hlift'
  simp only at h ⊢
  refine ⟨hcheck, ?_⟩
  -- Without markers the rows are joined in the statement itself, else in a derived table.
  unfold rowSource
  by_cases hempty : markers.isEmpty
  · simp only [hempty, if_true] at h ⊢
    obtain ⟨source, n₁, hsource, h⟩ := Assembly.run_bind_eq_ok_iff.mp h
    obtain ⟨rfl, rfl⟩ := Assembly.run_pure_eq_ok_iff.mp h
    exact ⟨rfl, markers, source, hmarkers, by rwa [if_pos hempty], by
      rw [outerWriter, if_pos hempty]; rfl⟩
  · simp only [hempty] at h ⊢
    obtain ⟨rows, n₁, hrows, h⟩ := Assembly.run_bind_eq_ok_iff.mp h
    obtain ⟨source, n₂, hsource, h⟩ := Assembly.run_bind_eq_ok_iff.mp h
    obtain ⟨rfl, rfl⟩ := Assembly.run_pure_eq_ok_iff.mp h
    exact ⟨rfl, markers, source, hmarkers, by
      rw [if_neg hempty]
      exact Assembly.run_bind_eq_ok_iff.mpr ⟨rows, n₁, hrows, hsource⟩, by
      rw [outerWriter, if_neg hempty]; rfl⟩

/-! ### The rows -/

/-- What the derived table selects: the columns that it hands on, and the markers. -/
def derivedSelection (a : Assembler) (d : Draft) (keys : List ColumnRef) (ms : List Marker) :
    Fragment :=
  Fragment.joined ((a.derivedColumns d keys).map (fun c =>
    Fragment.named (a.writer.column c) (derivedName c)) ++ ms.map (a.markerColumn keys)) .comma

theorem derivedRows_run_eq_ok {kept : List TableId} {d : Draft} {keys : List ColumnRef}
    {ms : List Marker} {f : Fragment} {n n' : Nat}
    (h : (a.derivedRows kept d keys ms).run n = .ok (f, n')) :
    ∃ source, (a.sources kept).run n = .ok (source, n') ∧
      f = [.token .select] ++ a.derivedSelection d keys ms ++ [.token .from_] ++ source := by
  unfold derivedRows at h
  obtain ⟨source, n₁, hsource, h⟩ := Assembly.run_bind_eq_ok_iff.mp h
  obtain ⟨rfl, rfl⟩ := Assembly.run_pure_eq_ok_iff.mp h
  exact ⟨source, hsource, rfl⟩

theorem rowSource_run_eq_ok {kept : List TableId} {d : Draft} {keys : List ColumnRef}
    {ms : List Marker} {f : Fragment} {n n' : Nat}
    (h : (a.rowSource kept d keys ms).run n = .ok (f, n')) :
    (ms.isEmpty ∧ (a.sources kept).run n = .ok (f, n')) ∨
      (¬ ms.isEmpty ∧ ∃ rows, (a.derivedRows kept d keys ms).run n = .ok (rows, n') ∧
        f = Fragment.named (Fragment.parens rows) derivedTable) := by
  unfold rowSource at h
  split at h
  · rename_i hempty
    exact .inl ⟨hempty, h⟩
  · rename_i hempty
    obtain ⟨rows, n₁, hrows, h⟩ := Assembly.run_bind_eq_ok_iff.mp h
    obtain ⟨rfl, rfl⟩ := Assembly.run_pure_eq_ok_iff.mp h
    exact .inr ⟨hempty, rows, hrows, rfl⟩

/-- What holds of each selected item holds of the selection. -/
theorem closed_derivedSelection {P : Fragment → Prop} (hP : Fragment.Closed P) {d : Draft}
    {keys : List ColumnRef} {ms : List Marker}
    (hcolumn : ∀ c, P (Fragment.named (a.writer.column c) (derivedName c)))
    (hmarker : ∀ m, P (a.markerColumn keys m)) : P (a.derivedSelection d keys ms) :=
  hP.joined (List.forall_mem_append.mpr
    ⟨List.forall_mem_map.mpr fun c _ => hcolumn c, List.forall_mem_map.mpr fun m _ => hmarker m⟩)

/-! ### The tables in the source -/

theorem run_eq_of_draw {α : Type} {action : TempIds α} {x : α} {n n' : Nat}
    (h : (draw action).run n = .ok (x, n')) : action.run n = (x, n') :=
  Except.ok.inj h

theorem draw_run_eq_ok {α : Type} {action : TempIds α} {x : α} {n n' : Nat}
    (h : (draw action).run n = .ok (x, n')) : x = (action.run n).1 :=
  (congrArg Prod.fst (run_eq_of_draw h)).symm

theorem joinClause_run_eq_ok {id : TableId} {j : Join} {f : Fragment} {n n' : Nat}
    (h : (a.joinClause id j).run n = .ok (f, n')) :
    ∃ on table, j.on? = some on ∧
      (draw (a.engine.tableSource j.table.name (tableAlias id))).run n = .ok (table, n') ∧
      f = [.token (joinToken j.kind), .token .join] ++ table ++ [.token .on_]
        ++ a.writer.term on := by
  unfold joinClause at h
  cases hon : j.on? with
  | none =>
    rw [hon] at h
    exact absurd h (Assembly.run_throw_ne_ok _)
  | some on =>
    rw [hon] at h
    obtain ⟨table, n₁, hdraw, h⟩ := Assembly.run_bind_eq_ok_iff.mp h
    obtain ⟨rfl, rfl⟩ := Assembly.run_pure_eq_ok_iff.mp h
    exact ⟨on, table, rfl, hdraw, rfl⟩

/-- A join that is not kept has an empty clause. -/
theorem joinClauses_run_cons_eq_ok {kept : List TableId} {id : TableId} {j : Join}
    {js : List Join} {f : Fragment} {n n' : Nat}
    (h : (a.joinClauses kept id (j :: js)).run n = .ok (f, n')) :
    ∃ clause n₁ rest,
      (kept.contains id = true ∧ (a.joinClause id j).run n = .ok (clause, n₁) ∨
        kept.contains id = false ∧ clause = [] ∧ n₁ = n) ∧
      (a.joinClauses kept (id + 1) js).run n₁ = .ok (rest, n') ∧ f = clause ++ rest := by
  unfold joinClauses at h
  simp only at h
  split at h
  · rename_i hkept
    obtain ⟨clause, n₁, hclause, h⟩ := Assembly.run_bind_eq_ok_iff.mp h
    obtain ⟨rest, n₂, hrest, h⟩ := Assembly.run_bind_eq_ok_iff.mp h
    obtain ⟨rfl, rfl⟩ := Assembly.run_pure_eq_ok_iff.mp h
    exact ⟨clause, n₁, rest, .inl ⟨hkept, hclause⟩, hrest, rfl⟩
  · rename_i hkept
    obtain ⟨clause, n₁, hclause, h⟩ := Assembly.run_bind_eq_ok_iff.mp h
    obtain ⟨rfl, rfl⟩ := Assembly.run_pure_eq_ok_iff.mp hclause
    obtain ⟨rest, n₂, hrest, h⟩ := Assembly.run_bind_eq_ok_iff.mp h
    obtain ⟨rfl, rfl⟩ := Assembly.run_pure_eq_ok_iff.mp h
    exact ⟨[], n, rest, .inr ⟨Bool.not_eq_true _ ▸ hkept, rfl, rfl⟩, hrest, rfl⟩

/-- The joined rows are the primary table, the kept joins and the filter. -/
theorem sources_run_eq_ok {kept : List TableId} {f : Fragment} {n n' : Nat}
    (h : (a.sources kept).run n = .ok (f, n')) :
    ∃ primary n₁ joins,
      (draw (a.engine.tableSource a.statement.primary.table.name (tableAlias 0))).run n =
        .ok (primary, n₁) ∧
      (a.joinClauses kept 1 a.statement.joins).run n₁ = .ok (joins, n') ∧
      (a.statement.filter? = none ∧ f = primary ++ joins ∨
        ∃ filter, a.statement.filter? = some filter ∧
          f = primary ++ joins ++ [.token .where_] ++ a.writer.term filter) := by
  unfold sources at h
  obtain ⟨primary, n₁, hprimary, h⟩ := Assembly.run_bind_eq_ok_iff.mp h
  obtain ⟨joins, n₂, hjoins, h⟩ := Assembly.run_bind_eq_ok_iff.mp h
  cases hfilter : a.statement.filter? with
  | none =>
    rw [hfilter] at h
    obtain ⟨rfl, rfl⟩ := Assembly.run_pure_eq_ok_iff.mp h
    exact ⟨primary, n₁, joins, hprimary, hjoins, .inl ⟨rfl, rfl⟩⟩
  | some filter =>
    rw [hfilter] at h
    obtain ⟨rfl, rfl⟩ := Assembly.run_pure_eq_ok_iff.mp h
    exact ⟨primary, n₁, joins, hprimary, hjoins, .inr ⟨filter, rfl, rfl⟩⟩

/-- A relation between fragments and the counts of names before and after they are written, which
holds of the parts that the joined rows are written with, and of such parts one after the other. -/
structure JoinsDraw (a : Assembler) (P : Nat → Fragment → Nat → Prop) : Prop where
  /-- Of no chunks. -/
  nil (n : Nat) : P n [] n
  /-- Of fragments one after the other. -/
  append {f g : Fragment} {n n₁ n₂ : Nat} : P n f n₁ → P n₁ g n₂ → P n (f ++ g) n₂
  /-- Of the keywords. -/
  token {t : Token} (n : Nat) : t ∈ [.inner, .left, .join, .on_, .where_] → P n [.token t] n
  /-- Of the tables. -/
  table (table name : String) (n : Nat) :
    P n ((a.engine.tableSource table name).run n).1 ((a.engine.tableSource table name).run n).2
  /-- Of the join conditions. -/
  on {j : Join} {t : Term} (n : Nat) :
    j ∈ a.statement.joins → j.on? = some t → P n (a.writer.term t) n
  /-- Of the filter. -/
  filter {t : Term} (n : Nat) : a.statement.filter? = some t → P n (a.writer.term t) n

namespace JoinsDraw

variable {P : Nat → Fragment → Nat → Prop} {f : Fragment} {n n' : Nat}

theorem tableSource (hP : a.JoinsDraw P) {table name : String}
    (h : (draw (a.engine.tableSource table name)).run n = .ok (f, n')) : P n f n' := by
  have htable := hP.table table name n
  rwa [run_eq_of_draw h] at htable

theorem joinClause (hP : a.JoinsDraw P) {id : TableId} {j : Join} (hj : j ∈ a.statement.joins)
    (h : (a.joinClause id j).run n = .ok (f, n')) : P n f n' := by
  obtain ⟨on, table, hon, hdraw, rfl⟩ := joinClause_run_eq_ok h
  have hkind : P n [.token (joinToken j.kind)] n := hP.token n (by cases j.kind <;> decide)
  have hjoin : P n [.token .join] n := hP.token n (by decide)
  have htable : P n table n' := hP.tableSource hdraw
  have hcondition : P n' (a.writer.term on) n' := hP.on n' hj hon
  have hon : P n' [.token .on_] n' := hP.token n' (by decide)
  exact hP.append (hP.append (hP.append (hP.append hkind hjoin) htable) hon) hcondition

theorem joinClauses (hP : a.JoinsDraw P) {kept : List TableId} {js : List Join} {id : TableId}
    (hjs : ∀ j ∈ js, j ∈ a.statement.joins)
    (h : (a.joinClauses kept id js).run n = .ok (f, n')) : P n f n' := by
  induction js generalizing id f n n' with
  | nil =>
    obtain ⟨rfl, rfl⟩ := Assembly.run_pure_eq_ok_iff.mp h
    exact hP.nil n
  | cons j js ih =>
    obtain ⟨hj, hjs⟩ := List.forall_mem_cons.mp hjs
    obtain ⟨clause, n₁, rest, ⟨-, hclause⟩ | ⟨-, rfl, rfl⟩, hrest, rfl⟩ :=
      joinClauses_run_cons_eq_ok h
    · exact hP.append (hP.joinClause hj hclause) (ih hjs hrest)
    · exact hP.append (hP.nil _) (ih hjs hrest)

/-- The relation holds of the joined rows. -/
theorem sources (hP : a.JoinsDraw P) {kept : List TableId}
    (h : (a.sources kept).run n = .ok (f, n')) : P n f n' := by
  obtain ⟨primary, n₁, joins, hprimary, hjoins, hfilter⟩ := sources_run_eq_ok h
  have hsources : P n (primary ++ joins) n' :=
    hP.append (hP.tableSource hprimary) (hP.joinClauses (fun _ hj => hj) hjoins)
  obtain ⟨-, rfl⟩ | ⟨filter, hfilter, rfl⟩ := hfilter
  · exact hsources
  · have hwhere : P n' [.token .where_] n' := hP.token n' (by decide)
    exact hP.append (hP.append hsources hwhere) (hP.filter n' hfilter)

end JoinsDraw

/-- A property of fragments that holds of the parts that the joined rows are written with, and of
such parts side by side. -/
structure JoinsKeep (a : Assembler) (P : Fragment → Prop) : Prop where
  /-- Of no chunks. -/
  nil : P []
  /-- Of fragments side by side. -/
  append {f g : Fragment} : P f → P g → P (f ++ g)
  /-- Of the keywords. -/
  token {t : Token} : t ∈ [.inner, .left, .join, .on_, .where_] → P [.token t]
  /-- Of the tables. -/
  table (table name : String) (n : Nat) : P ((a.engine.tableSource table name).run n).1
  /-- Of the join conditions. -/
  on {j : Join} {t : Term} : j ∈ a.statement.joins → j.on? = some t → P (a.writer.term t)
  /-- Of the filter. -/
  filter {t : Term} : a.statement.filter? = some t → P (a.writer.term t)

/-- The property holds of the joined rows, however many names have been drawn. -/
theorem JoinsKeep.sources {P : Fragment → Prop} (hP : a.JoinsKeep P) {kept : List TableId}
    {f : Fragment} {n n' : Nat} (h : (a.sources kept).run n = .ok (f, n')) : P f :=
  JoinsDraw.sources (P := fun _ f _ => P f)
    { nil := fun _ => hP.nil
      append := hP.append
      token := fun _ => hP.token
      table := hP.table
      on := fun _ => hP.on
      filter := fun _ => hP.filter } h

theorem isStarless_joinTokens (kind : JoinKind) :
    IsStarless [.token (joinToken kind), .token .join] := by
  cases kind <;> simp [IsStarless, joinToken]

theorem reads_joinClause {id : TableId} {j : Join} {f : Fragment} {n n' : Nat}
    (h : (a.joinClause id j).run n = .ok (f, n')) : Reads f [tableAlias id] := by
  obtain ⟨on, table, -, hdraw, rfl⟩ := joinClause_run_eq_ok h
  have htable : Reads table [tableAlias id] := by
    rw [draw_run_eq_ok hdraw]
    exact a.engine.reads_tableSource _ _ _
  have hcondition : IsStarless ([.token .on_] ++ a.writer.term on) :=
    (isStarless_singleton (by simp)).append (a.writer.isStarless_term on)
  rw [List.append_assoc _ [_]]
  exact ((reads_of_isStarless (isStarless_joinTokens j.kind)).append htable).append
    (reads_of_isStarless hcondition)

/-- The joins read from the kept ones of their tables. -/
theorem reads_joinClauses {kept : List TableId} {js : List Join} {id : TableId} {f : Fragment}
    {n n' : Nat} (h : (a.joinClauses kept id js).run n = .ok (f, n')) :
    Reads f (((List.range' id js.length).filter kept.contains).map tableAlias) := by
  induction js generalizing id f n n' with
  | nil =>
    obtain ⟨rfl, -⟩ := Assembly.run_pure_eq_ok_iff.mp h
    exact reads_nil
  | cons j js ih =>
    rw [List.length_cons, List.range'_succ]
    obtain ⟨clause, n₁, rest, ⟨hkept, hclause⟩ | ⟨hkept, rfl, -⟩, hrest, rfl⟩ :=
      joinClauses_run_cons_eq_ok h
    · rw [List.filter_cons_of_pos hkept]
      exact (reads_joinClause hclause).append (ih hrest)
    · rw [List.filter_cons_of_neg (Bool.eq_false_iff.mp hkept)]
      exact reads_nil.append (ih hrest)

/-- The joined rows read from the primary table and the kept joins. -/
theorem reads_sources {kept : List TableId} (hzero : 0 ∈ kept) {f : Fragment} {n n' : Nat}
    (h : (a.sources kept).run n = .ok (f, n')) :
    Reads f ((a.statement.tableIds.filter kept.contains).map tableAlias) := by
  obtain ⟨primary, n₁, joins, hprimary, hjoins, hfilter⟩ := sources_run_eq_ok h
  have hids : a.statement.tableIds.filter kept.contains =
      0 :: (List.range' 1 a.statement.joins.length).filter kept.contains := by
    rw [Statement.tableIds, Statement.sources, List.length_cons, List.length_map,
      List.range_eq_range', List.range'_succ, List.filter_cons,
      if_pos (List.contains_iff_mem.mpr hzero)]
  have hsources : Reads (primary ++ joins)
      ((a.statement.tableIds.filter kept.contains).map tableAlias) := by
    -- The clauses are numbered from 1 on, as the joined tables are.
    rw [hids, draw_run_eq_ok hprimary]
    exact (a.engine.reads_tableSource _ _ _).append (reads_joinClauses hjoins)
  obtain ⟨-, rfl⟩ | ⟨filter, -, rfl⟩ := hfilter
  · exact hsources
  · have hwhere : IsStarless ([.token .where_] ++ a.writer.term filter) :=
      (isStarless_singleton (by simp)).append (a.writer.isStarless_term filter)
    rw [List.append_assoc _ [_], ← List.append_nil (List.map _ _)]
    exact hsources.append (reads_of_isStarless hwhere)

/-! ### The other parts -/

theorem isStarless_projection (w : TermWriter) (d : Draft) : IsStarless (projection w d) := by
  have hselect : IsStarless [.token .select] := isStarless_singleton (by simp)
  refine hselect.append (closed_isStarless.joined fun f hf => ?_)
  rcases List.mem_append.mp hf with hf | hf
  · obtain ⟨o, -, rfl⟩ := List.mem_map.mp hf
    exact (w.isStarless_term o.value).named o.name
  · obtain ⟨⟨name, t⟩, -, rfl⟩ := List.mem_map.mp hf
    exact (w.isStarless_column (rowIdRef t)).named name

theorem isStarless_columns (w : TermWriter) (cs : List ColumnRef) :
    IsStarless (Fragment.joined (cs.map w.column) .comma) :=
  closed_isStarless.joined (List.forall_mem_map.mpr fun c _ => w.isStarless_column c)

theorem isStarless_groupClause (w : TermWriter) (outputs : List (Output Cell))
    (keys : List ColumnRef) : IsStarless (groupClause w outputs keys) := by
  unfold groupClause
  split
  · have hgroup : IsStarless [.token .group, .token .by_] := by simp [IsStarless]
    exact hgroup.append (isStarless_columns w keys)
  · exact closed_isStarless.nil

theorem isStarless_ordering (a : Assembler) (w : TermWriter) (d : Draft) :
    IsStarless (a.ordering w d) := by
  have horder : IsStarless [.token .order, .token .by_] := by simp [IsStarless]
  refine horder.append (closed_isStarless.joined fun f hf => ?_)
  rcases List.mem_append.mp hf with hf | hf
  · obtain ⟨⟨key, direction⟩, -, rfl⟩ := List.mem_map.mp hf
    have hdirection : IsStarless [.token (directionToken direction)] := by
      cases direction <;> exact isStarless_singleton (by simp [directionToken])
    exact (w.isStarless_term key).append hdirection
  · obtain ⟨l, -, rfl⟩ := List.mem_map.mp hf
    exact w.isStarless_column _

theorem isStarless_markerColumn (keys : List ColumnRef) (m : Marker) :
    IsStarless (a.markerColumn keys m) := by
  have hcall : IsStarless (Fragment.call "ROW_NUMBER" [] ++ [.token .over_]) := by
    simp [IsStarless, Fragment.call, Fragment.parens, Fragment.isSubquery]
  have hpartition : IsStarless [.raw "PARTITION BY"] := isStarless_singleton (by simp)
  exact (hcall.append (closed_isStarless.parens
    (hpartition.append (isStarless_columns a.writer (partition keys m))))).named m.name

/-- The source of the rows has no further star than the joined rows in it. -/
theorem exists_sources_of_rowSource {kept : List TableId} {d : Draft} {keys : List ColumnRef}
    {ms : List Marker} {f : Fragment} {n n' : Nat}
    (h : (a.rowSource kept d keys ms).run n = .ok (f, n')) :
    ∃ before source after, (a.sources kept).run n = .ok (source, n') ∧
      IsStarless before ∧ IsStarless after ∧ f = before ++ source ++ after := by
  obtain ⟨-, h⟩ | ⟨-, rows, hrows, rfl⟩ := rowSource_run_eq_ok h
  · exact ⟨[], f, [], h, closed_isStarless.nil, closed_isStarless.nil, (List.append_nil f).symm⟩
  · obtain ⟨source, hsource, rfl⟩ := derivedRows_run_eq_ok hrows
    have hopen : IsStarless [.token .openParen, .token .select] := by simp [IsStarless]
    have hselection : IsStarless (a.derivedSelection d keys ms) :=
      closed_derivedSelection closed_isStarless
        (fun c => (a.writer.isStarless_column c).named (derivedName c))
        (isStarless_markerColumn keys)
    have hfrom : IsStarless [.token .from_] := isStarless_singleton (by simp)
    have hclose : IsStarless [.token .closeParen] := isStarless_singleton (by simp)
    exact ⟨_, source, _, hsource, (hopen.append hselection).append hfrom,
      hclose.named derivedTable, by simp [Fragment.named, Fragment.parens]⟩

/-! ### The whole statement -/

/-- All stars of a statement, and with them all its table sources, are in the joined rows. -/
theorem exists_sources_of_assemble {outputs : List (Output Cell)} {tables : List MappedTable}
    {r : Assembled} {n n' : Nat} (h : (a.assemble outputs tables).run n = .ok (r, n')) :
    ∃ before source after,
      (a.sources (a.statement.kept
        (Draft.ofMapping a.statement tables outputs).neededTables)).run n = .ok (source, n') ∧
      IsStarless before ∧ IsStarless after ∧ r.sql = before ++ source ++ after := by
  obtain ⟨-, -, markers, f, -, hf, hsql⟩ := assemble_run_eq_ok h
  obtain ⟨before, source, after, hsource, hbefore, hafter, rfl⟩ := exists_sources_of_rowSource hf
  generalize Draft.ofMapping a.statement tables outputs = d at *
  have hhead : IsStarless (projection (a.outerWriter markers) d ++ [.token .from_]) :=
    (isStarless_projection _ d).append (isStarless_singleton (by simp))
  have htail := ((isStarless_groupClause (a.outerWriter markers) outputs
    (a.keysOf outputs d)).append (a.isStarless_ordering (a.outerWriter markers) d)).append
    (a.engine.isStarless_paging a.statement.skip? a.statement.take?)
  exact ⟨_, source, _, hsource, hhead.append hbefore, hafter.append htail, by
    simp only [hsql, List.append_assoc]⟩

/-- **A statement reads from the kept tables**, each once and in order. -/
theorem sourceNames_of_assemble {outputs : List (Output Cell)} {tables : List MappedTable}
    {r : Assembled} {n n' : Nat} (h : (a.assemble outputs tables).run n = .ok (r, n')) :
    sourceNames r.sql =
      (a.statement.kept (Draft.ofMapping a.statement tables outputs).neededTables).map
        tableAlias := by
  obtain ⟨before, source, after, hsource, hbefore, hafter, hsql⟩ := exists_sources_of_assemble h
  generalize (Draft.ofMapping a.statement tables outputs).neededTables = needed at *
  have hzero : 0 ∈ a.statement.kept needed :=
    Statement.mem_kept_iff.mpr (.fixed a.statement.zero_mem_tableIds rfl)
  have hreads := ((reads_of_isStarless hbefore).append (reads_sources hzero hsource)).append
    (reads_of_isStarless hafter)
  rw [a.statement.filter_contains_kept needed, List.nil_append, List.append_nil] at hreads
  rw [hsql, hreads.sourceNames_eq]

end Assembler

/-! ### Mapped tables -/

/-- The tables that something in a query requires. -/
inductive Stages.Requires (st : Stages) : TableId → Prop
  /-- The primary table, and those of inner joins. -/
  | fixed {t : TableId} : t ∈ st.statement.tableIds → st.statement.isFixed t → Requires st t
  /-- The tables that the mapping iterates. -/
  | iterated {m : MappedTable} :
      m ∈ st.compiled.tables → m.aggregated = false → Requires st m.table
  /-- The tables that an output reads or folds a value into. -/
  | output {o : Output Cell} {t : TableId} :
      o ∈ st.outputs → t ∈ st.statement.tableIds → t ∈ Term.neededTables o.value → Requires st t
  /-- The tables that the filter or an ordering key reads. -/
  | clause {t : TableId} :
      t ∈ st.statement.tableIds → t ∈ st.statement.clauseNeeds → Requires st t
  /-- The tables that the join condition of such a table reads. -/
  | condition {t u : TableId} :
      Requires st u → t ∈ st.statement.tableIds → t ∈ st.statement.joinNeeds u → Requires st t

/-- A draft needs what the mapping iterates and what its outputs need; the other tables are kept
for the statement's own sake. -/
theorem Stages.mem_kept_iff_requires {st : Stages} (hst : st.IsChecked) {t : TableId} :
    t ∈ st.kept ↔ st.Requires t := by
  obtain ⟨hcollects, hplaced⟩ :=
    Draft.ofMapping_collects st.statement st.compiled.tables st.outputs
  have hneeded := fun {t} => hcollects.mem_neededTables_iff hplaced (t := t)
  rw [Stages.kept, Statement.mem_kept_iff]
  -- Both are least sets with the same clauses, so each induction matches them one by one.
  constructor
  · intro h
    induction h with
    | fixed hids hfixed => exact .fixed hids hfixed
    | needed hids ht =>
      rcases hneeded.mp ht with rfl | ⟨m, hm, hrows, rfl⟩ | ⟨o, ho, ht⟩
      · exact .fixed hids rfl
      · exact .iterated hm hrows
      · exact .output ho hids ht
    | clause hids ht => exact .clause hids ht
    | condition _ hids ht ih => exact .condition ih hids ht
  · intro h
    induction h with
    | fixed hids hfixed => exact .fixed hids hfixed
    | iterated hm hrows =>
      exact .needed (hst.tables _ hm) (hneeded.mpr (Or.inr (Or.inl ⟨_, hm, hrows, rfl⟩)))
    | output ho hids ht => exact .needed hids (hneeded.mpr (Or.inr (Or.inr ⟨_, ho, ht⟩)))
    | clause hids ht => exact .clause hids ht
    | condition _ hids ht ih => exact .condition ih hids ht

/-- **Which mapped tables a statement reads from.** The statement of an accepted query reads from
a mapped table just if something requires it. That is so of every table which the mapping
iterates, but a table that is only counted may be required by nothing. -/
theorem mem_sourceNames_iff {settings : Settings} {q : QuerySpec} {mapping : Expr} {query : Query}
    {n n' : Nat} (h : (q.compile settings mapping).run n = .ok (query, n')) :
    ∃ st, q.stages settings.naming mapping = .ok st ∧
      (∀ m ∈ st.compiled.tables,
        tableAlias m.table ∈ sourceNames query.sql ↔ st.Requires m.table) ∧
      (∀ m ∈ st.compiled.tables, m.aggregated = false →
        tableAlias m.table ∈ sourceNames query.sql) ∧
      ((∀ m ∈ st.compiled.tables, tableAlias m.table ∈ sourceNames query.sql) ↔
        ∀ m ∈ st.compiled.tables, m.aggregated = true → st.Requires m.table) := by
  obtain ⟨st, assembled, hst, hassembled, rfl⟩ := QuerySpec.compile_run_eq_ok_iff.mp h
  -- The sources of the text are the kept tables.
  have hmem : ∀ t, tableAlias t ∈ sourceNames assembled.sql ↔ st.Requires t := by
    intro t
    rw [Assembler.sourceNames_of_assemble hassembled,
      List.mem_map_of_injective fun _ _ => tableAlias_injective]
    exact st.mem_kept_iff_requires (Stages.isChecked_of_stages hst)
  refine ⟨st, hst, fun m _ => hmem m.table, fun m hm hrows => ?_, ?_⟩
  · exact (hmem m.table).mpr (.iterated hm hrows)
  · constructor
    · exact fun hall m hm _ => (hmem m.table).mp (hall m hm)
    · intro hall m hm
      cases hrows : m.aggregated with
      | false => exact (hmem m.table).mpr (.iterated hm hrows)
      | true => exact (hmem m.table).mpr (hall m hm hrows)

/-- A member of the row of a shape, and a member of that. -/
def shapeField (table name : String) : Expr :=
  .member (.member .row table) name

/-- The classes of a person. -/
def classJoin : JoinSpec where
  path := "classes"
  table := ⟨"class", [⟨"id", none, .integer⟩, ⟨"person_id", none, .integer⟩,
    ⟨"title", none, .text⟩]⟩
  cardinality := .many
  kind := .left
  condition := .binary .eq (shapeField "classes" "person_id") (shapeField "person" "id")

/-- People and their classes, if any. -/
def people : QuerySpec where
  primary := ⟨"person", ⟨"person", [⟨"id", none, .integer⟩, ⟨"name", none, .text⟩]⟩⟩
  joins := [classJoin]

/-- Each person's name, and a one for every class, counted. -/
def countedOnes : Expr :=
  .object [("name", shapeField "person" "name"),
    ("count", .aggregate .count
      (.select (.member .row "classes") "c" (.constant (.integer 1))))]

/-- The count of `countedOnes` ranges over classes, which the statement does not read. -/
theorem mem_sourceNames_iff_countedOnes :
    ∃ query n' st, (people.compile {} countedOnes).run 0 = .ok (query, n') ∧
      people.stages .snakeCase countedOnes = .ok st ∧
      ∃ m ∈ st.compiled.tables, m.table = 1 ∧ tableAlias m.table ∉ sourceNames query.sql ∧
        ¬ st.Requires m.table := by
  have hrun : ((people.compile {} countedOnes).run 0).any
      (fun x => sourceNames x.1.sql == ["t0"]) = true := by decide +kernel
  have hcounted : (people.stages .snakeCase countedOnes).any
      (fun st => st.compiled.tables.any fun m => m.table == 1) = true := by decide +kernel
  obtain ⟨⟨query, n'⟩, hquery, hnames⟩ := Result.any_eq_true_iff.mp hrun
  obtain ⟨st', hst', hany⟩ := Result.any_eq_true_iff.mp hcounted
  obtain ⟨st, hst, hiff, -⟩ := mem_sourceNames_iff hquery
  obtain rfl : st' = st := Except.ok.inj (hst'.symm.trans hst)
  obtain ⟨m, hm, htable⟩ := List.any_eq_true.mp hany
  rw [beq_iff_eq] at hnames htable
  have hnot : tableAlias m.table ∉ sourceNames query.sql := by
    rw [hnames, htable]
    decide
  exact ⟨query, n', st', hquery, hst', m, hm, htable, hnot, fun h => hnot ((hiff m hm).mpr h)⟩

end NestedQuery
