import NestedQuery.Proofs.Select.Aggregates
import NestedQuery.Proofs.Sql.Occurrences

/-!
# Guarded aggregates

A collection that a statement keeps but neither groups by nor folds into an aggregate repeats the
rows that the aggregate takes. An aggregate that this would change is guarded if it counts distinct
row numbers, or takes only the rows that a marker numbers one (`TermWriter.IsGuarded`).

The markers are made for all such aggregates but those of row numbers (`exists_marker_iff`), while
only a count of row numbers is written without repetition. So an aggregate of a row number that is
no plain count is guarded just if some other aggregate reads the same table and has a marker made
for it, or not at all (`isGuarded_iff_of_compile`).
-/

namespace NestedQuery

open Fragment

/-! ### Markers -/

namespace Assembler

variable {a : Assembler} {kept selected : List TableId} {d : Draft} {ms : List Marker}

theorem markedTables?_eq_some_iff {function : Aggregate} {operand : Term}
    {tables : List TableId} : a.markedTables? kept selected function operand = some tables ↔
      (function.countsDuplicates = true ∧ Term.isRowId operand = false ∧
        Term.readTables operand = tables) ∧ tables ≠ [] ∧
          a.isMultiplied kept selected tables = true := by
  unfold markedTables?
  simp only [Bool.and_eq_true, Bool.not_eq_true', List.isEmpty_eq_false_iff]
  constructor
  · intro h
    split at h
    · next hneeds =>
      obtain rfl := Option.some.inj h
      exact ⟨⟨hneeds.1.1.1, hneeds.1.1.2, rfl⟩, hneeds.1.2, hneeds.2⟩
    · cases h
  · rintro ⟨⟨hfunction, hrow, rfl⟩, hne, hmultiplied⟩
    exact if_pos ⟨⟨⟨hfunction, hrow⟩, hne⟩, hmultiplied⟩

/-- **What there are markers for**: the tables of each aggregate that needs one. -/
theorem exists_marker_iff (h : a.markers kept d = .ok ms) {tables : List TableId} :
    (∃ m ∈ ms, m.tables = tables) ↔ ∃ p ∈ d.outputs, ∃ x ∈ p.value.aggregates,
      a.markedTables? kept d.rowIdTables x.1 x.2 = some tables := by
  unfold markers at h
  generalize hneeded : (d.outputs.flatMap fun o => o.value.aggregates.filterMap fun x =>
    a.markedTables? kept d.rowIdTables x.1 x.2) = needed at h
  have hms : needed.eraseDups.zipIdx.map (fun x => (⟨s!"##d{x.2}", x.1⟩ : Marker)) = ms := by
    dsimp only at h
    split at h
    · cases h
    · exact Except.ok.inj h
  have htables : ms.map Marker.tables = needed.eraseDups := by
    rw [← hms, List.map_map]
    exact List.zipIdx_map_fst 0 needed.eraseDups
  rw [← List.mem_map, htables, List.mem_eraseDups, ← hneeded, List.mem_flatMap]
  simp only [List.mem_filterMap]

theorem outerWriter_markers (a : Assembler) (ms : List Marker) :
    (a.outerWriter ms).markers?.getD [] = ms := by
  unfold outerWriter
  split
  · next hempty => exact (List.isEmpty_iff.mp hempty).symm
  · rfl

theorem exists_marker?_eq_some_iff (ms : List Marker) (operand : Term) :
    (∃ m, (a.outerWriter ms).marker? operand = some m) ↔
      ∃ m ∈ ms, m.tables = Term.readTables operand := by
  rw [TermWriter.marker?, outerWriter_markers, ← Option.isSome_iff_exists, List.find?_isSome]
  simp only [beq_iff_eq]

theorem marker?_eq_some {operand : Term} {m : Marker}
    (h : (a.outerWriter ms).marker? operand = some m) :
    m ∈ ms ∧ m.tables = Term.readTables operand := by
  rw [TermWriter.marker?, outerWriter_markers] at h
  exact ⟨List.mem_of_find?_eq_some h, by simpa using List.find?_some h⟩

end Assembler

/-! ### Written aggregates -/

/-- A column that numbers the rows with the same values of some columns. -/
def rowNumbering (w : TermWriter) (columns : List ColumnRef) (name : String) : Fragment :=
  Fragment.named
    (Fragment.call "ROW_NUMBER" [] ++ [.token .over_]
      ++ Fragment.parens (.raw "PARTITION BY" :: Fragment.joined (columns.map w.column) .comma))
    name

/-- Whether a term is a row number and nothing more. -/
def Term.isPlainRowId : Term → Bool
  | .leaf (.column c _ none _) => c.isRowId
  | _ => false

namespace TermWriter

/-- The writer of terms over the joined rows themselves. -/
def inner (w : TermWriter) : TermWriter :=
  { w with markers? := none }

/-- How aggregates are written so that no repeated row changes them, in a statement that is grouped
by `keys`. -/
inductive IsGuarded (w : TermWriter) (sql : Fragment) (keys : List ColumnRef) :
    Aggregate → Term → Fragment → Prop
  /-- Distinct row numbers are counted. -/
  | counted {c r : ColumnRef} {type : ValueType} : c.isRowId = true →
      IsGuarded w sql keys .count (.leaf (.column c r none type))
        (w.engine.aggregate .count (w.column c) true)
  /-- Of the rows with the same keys and the same rows of the tables that are read, those that a
  column of the derived table numbers one are taken. -/
  | marked {function : Aggregate} {operand : Term} {m : Marker} {columns : List ColumnRef}
      {rows : Fragment} : Fragment.named (Fragment.parens rows) derivedTable <:+: sql →
      rowNumbering w.inner columns m.name <:+: rows →
      (∀ c, c ∈ columns ↔ c ∈ keys ∨ ∃ t ∈ Term.readTables operand, c = rowIdRef t) →
      IsGuarded w sql keys function operand
        (w.engine.aggregate function (marked m (w.term operand)) false)

variable {w : TermWriter} {sql : Fragment} {keys : List ColumnRef} {function : Aggregate}
  {operand : Term}

/-- A count of row numbers is written without repetition. -/
theorem aggregate_count_of_isRowId (h : Term.isRowId operand = true) (value : Fragment) :
    w.aggregate .count operand value = w.engine.aggregate .count value true :=
  if_pos ⟨rfl, h⟩

/-- The other aggregates take the rows that their marker numbers one, if they have a marker. -/
theorem aggregate_of_countsDuplicates (hcount : ¬ (function = .count ∧ Term.isRowId operand = true))
    (hfunction : function.countsDuplicates = true) (value : Fragment) :
    w.aggregate function operand value =
      match w.marker? operand with
      | some m => w.engine.aggregate function (TermWriter.marked m value) false
      | none => w.engine.aggregate function value false := by
  rw [aggregate, if_neg hcount]
  by_cases hmarkers : w.markers?.isSome = true
  · exact if_pos ⟨hmarkers, hfunction⟩
  · rw [if_neg fun h => hmarkers h.1]
    have hnone : w.marker? operand = none := by
      rw [marker?, Option.not_isSome_iff_eq_none.mp hmarkers]
      rfl
    rw [hnone]

/-! Aggregates of a row number without marker have no `CASE`. -/

theorem case_notMem_call (name : String) {f : Fragment} (h : Chunk.token .case ∉ f) :
    Chunk.token .case ∉ Fragment.call name f := by
  unfold Fragment.call
  split <;> simpa [Fragment.parens] using h

theorem case_notMem_aggregate (e : Engine) (function : Aggregate) {value : Fragment}
    (h : Chunk.token .case ∉ value) (distinct : Bool) :
    Chunk.token .case ∉ e.aggregate function value distinct := by
  have hvalue : Chunk.token .case ∉ if distinct then .token .distinct :: value else value := by
    split
    · simpa using h
    · exact h
  rcases e.aggregate_eq function value distinct with heq | ⟨type, -, heq⟩
  · exact heq ▸ case_notMem_call _ hvalue
  · exact heq ▸ case_notMem_call _ (by simpa using case_notMem_call function.sqlName hvalue)

theorem case_notMem_of_isRowId (h : Term.isRowId operand = true) :
    Chunk.token .case ∉ w.term operand := by
  unfold Term.isRowId at h
  split at h
  · next c r function type =>
    rw [term]
    have hcolumn : Chunk.token .case ∉ w.column c := by
      unfold column
      split <;> simp [qualified]
    cases function with
    | none => exact hcolumn
    | some f => exact case_notMem_call f.sqlName hcolumn
  · cases h

theorem case_mem_marked (e : Engine) (m : Marker) (value : Fragment) :
    Chunk.token .case ∈ e.aggregate function (TermWriter.marked m value) false :=
  (e.infix_aggregate function _ false).subset (by simp [TermWriter.marked])

theorem isGuarded_count_of_isPlainRowId (h : Term.isPlainRowId operand = true) :
    w.IsGuarded sql keys .count operand (w.engine.aggregate .count (w.term operand) true) := by
  unfold Term.isPlainRowId at h
  split at h
  · rw [term]
    exact .counted h
  · cases h

/-- Of row numbers, only plain counts and marked aggregates are guarded. -/
theorem IsGuarded.of_case_notMem {f : Fragment} (h : w.IsGuarded sql keys function operand f)
    (hcase : Chunk.token .case ∉ f) :
    function = .count ∧ Term.isPlainRowId operand = true := by
  cases h with
  | counted hc => exact ⟨rfl, hc⟩
  | marked => exact absurd (case_mem_marked ..) hcase

end TermWriter

/-! ### The statement -/

namespace Assembler

variable {a : Assembler}

theorem mem_partition_iff {keys : List ColumnRef} {m : Marker} {c : ColumnRef} :
    c ∈ partition keys m ↔ c ∈ keys ∨ ∃ t ∈ m.tables, c = rowIdRef t := by
  rw [partition, List.mem_eraseDups, List.mem_append, List.mem_map]
  simp only [eq_comm]

/-- A statement with a derived table that has the column of each marker. -/
def HasMarkers (a : Assembler) (keys : List ColumnRef) (ms : List Marker) (sql : Fragment) :
    Prop :=
  ∀ m ∈ ms, ∃ rows, Fragment.named (Fragment.parens rows) derivedTable <:+: sql ∧
    a.markerColumn keys m <:+: rows

/-- If there is a marker then the rows are those of a derived table, which has its column. -/
theorem infix_markerColumn {kept : List TableId} {d : Draft} {keys : List ColumnRef}
    {ms : List Marker} {f : Fragment} {n n' : Nat}
    (h : (a.rowSource kept d keys ms).run n = .ok (f, n')) {m : Marker} (hm : m ∈ ms) :
    ∃ rows, f = Fragment.named (Fragment.parens rows) derivedTable ∧
      a.markerColumn keys m <:+: rows := by
  obtain ⟨hempty, -⟩ | ⟨-, rows, hrows, rfl⟩ := rowSource_run_eq_ok h
  · exact absurd (List.isEmpty_iff.mp hempty) (List.ne_nil_of_mem hm)
  refine ⟨rows, rfl, ?_⟩
  obtain ⟨source, -, rfl⟩ := derivedRows_run_eq_ok hrows
  have hselected := infix_joined (List.mem_append_right
    ((a.derivedColumns d keys).map fun c => Fragment.named (a.writer.column c) (derivedName c))
    (List.mem_map_of_mem (f := a.markerColumn keys) hm)) .comma
  refine (hselected.trans (List.suffix_append [.token .select] _).isInfix).trans ?_
  rw [List.append_assoc]
  exact (List.prefix_append _ _).isInfix

/-- The select list has the item of each output. -/
theorem infix_projection (w : TermWriter) {d : Draft} {p : Projected} (hp : p ∈ d.outputs) :
    Fragment.named (w.term p.value) p.name <:+: projection w d :=
  (infix_joined (List.mem_append_left _ (List.mem_map_of_mem
    (f := fun o : Projected => Fragment.named (w.term o.value) o.name) hp)) .comma).trans
      (List.infix_cons (List.infix_refl _))

variable {ms : List Marker} {sql : Fragment} {keys : List ColumnRef} {function : Aggregate}
  {operand : Term}

theorem isGuarded_of_exists_marker (hsql : a.HasMarkers keys ms sql)
    (hcount : ¬ (function = .count ∧ Term.isRowId operand = true))
    (hfunction : function.countsDuplicates = true)
    (hmarker : ∃ m ∈ ms, m.tables = Term.readTables operand) :
    (a.outerWriter ms).IsGuarded sql keys function operand
      ((a.outerWriter ms).aggregate function operand ((a.outerWriter ms).term operand)) := by
  obtain ⟨m, hm⟩ := (exists_marker?_eq_some_iff ms operand).mpr hmarker
  obtain ⟨hmem, htables⟩ := marker?_eq_some hm
  rw [TermWriter.aggregate_of_countsDuplicates hcount hfunction, hm]
  obtain ⟨rows, hrows, hcolumn⟩ := hsql m hmem
  exact .marked hrows hcolumn fun c => htables ▸ mem_partition_iff

theorem aggregate_of_not_exists_marker
    (hcount : ¬ (function = .count ∧ Term.isRowId operand = true))
    (hfunction : function.countsDuplicates = true)
    (hmarker : ¬ ∃ m ∈ ms, m.tables = Term.readTables operand) (value : Fragment) :
    (a.outerWriter ms).aggregate function operand value =
      a.engine.aggregate function value false := by
  have hnone : (a.outerWriter ms).marker? operand = none := by
    rw [Option.eq_none_iff_forall_ne_some]
    exact fun m hm => hmarker ((exists_marker?_eq_some_iff ms operand).mp ⟨m, hm⟩)
  rw [TermWriter.aggregate_of_countsDuplicates hcount hfunction, hnone]
  rfl

end Assembler

namespace Stages

/-- A collection that is kept repeats the rows of some tables: it is none of them, and its row
number is not selected. -/
def IsRepeated (st : Stages) (tables : List TableId) : Prop :=
  ∃ t ∈ st.kept, st.statement.cardinality t = .many ∧ t ∉ tables ∧ t ∉ st.draft.rowIdTables

/-- Some aggregate that repeated rows would change reads just these tables, and is none of a row
number. -/
def FoldsValuesOf (st : Stages) (tables : List TableId) : Prop :=
  ∃ p ∈ st.draft.outputs, ∃ x ∈ p.value.aggregates, x.1.countsDuplicates = true ∧
    Term.isRowId x.2 = false ∧ Term.readTables x.2 = tables

variable {st : Stages} {engine : Engine} {tables : List TableId} {ms : List Marker}

theorem isMultiplied_iff :
    (st.assembler engine).isMultiplied st.kept st.draft.rowIdTables tables = true ↔
      st.IsRepeated tables := by
  rw [Assembler.isMultiplied, List.any_eq_true]
  simp only [Bool.and_eq_true, beq_iff_eq, Bool.not_eq_true', and_assoc, IsRepeated,
    List.contains_eq_mem, decide_eq_false_iff_not]
  exact Iff.rfl

theorem exists_marker_iff (h : (st.assembler engine).markers st.kept st.draft = .ok ms)
    (hne : tables ≠ []) :
    (∃ m ∈ ms, m.tables = tables) ↔ st.IsRepeated tables ∧ st.FoldsValuesOf tables := by
  rw [Assembler.exists_marker_iff h]
  simp only [Assembler.markedTables?_eq_some_iff, isMultiplied_iff]
  constructor
  · rintro ⟨p, hp, x, hx, hfolds, -, hrepeated⟩
    exact ⟨hrepeated, p, hp, x, hx, hfolds⟩
  · rintro ⟨hrepeated, p, hp, x, hx, hfolds⟩
    exact ⟨p, hp, x, hx, hfolds, hne, hrepeated⟩

/-- When an aggregate whose rows are repeated is guarded, in a statement with the column of each
marker. -/
theorem isGuarded_iff (hms : (st.assembler engine).markers st.kept st.draft = .ok ms)
    {sql : Fragment} (hsql : (st.assembler engine).HasMarkers st.groupKeys ms sql)
    {p : Projected} (hp : p ∈ st.draft.outputs) {x : Aggregate × Term}
    (hx : x ∈ p.value.aggregates) (hfunction : x.1.countsDuplicates = true)
    (hne : Term.readTables x.2 ≠ []) (hrepeated : st.IsRepeated (Term.readTables x.2)) :
    let w := (st.assembler engine).outerWriter ms
    w.IsGuarded sql st.groupKeys x.1 x.2 (w.aggregate x.1 x.2 (w.term x.2)) ↔
      Term.isRowId x.2 = false ∨ (x.1 = .count ∧ Term.isPlainRowId x.2 = true) ∨
        (x.1 ≠ .count ∧ st.FoldsValuesOf (Term.readTables x.2)) := by
  intro w
  obtain ⟨function, operand⟩ := x
  have hmarker : (∃ m ∈ ms, m.tables = Term.readTables operand) ↔
      st.FoldsValuesOf (Term.readTables operand) :=
    (exists_marker_iff hms hne).trans (and_iff_right hrepeated)
  cases hrow : Term.isRowId operand with
  | false =>
    have hfolds : st.FoldsValuesOf (Term.readTables operand) :=
      ⟨p, hp, (function, operand), hx, hfunction, hrow, rfl⟩
    refine iff_of_true ?_ (Or.inl rfl)
    exact Assembler.isGuarded_of_exists_marker hsql (fun h => by simp [hrow] at h) hfunction
      (hmarker.mpr hfolds)
  | true =>
    by_cases hcount : function = .count
    · subst hcount
      -- The distinct values of the operand are counted, which are row numbers only if it is plain.
      rw [TermWriter.aggregate_count_of_isRowId hrow]
      constructor
      · intro h
        exact Or.inr (Or.inl (h.of_case_notMem
          (TermWriter.case_notMem_aggregate _ _ (TermWriter.case_notMem_of_isRowId hrow) true)))
      · rintro (h | ⟨-, hplain⟩ | ⟨hne, -⟩)
        · cases h
        · exact TermWriter.isGuarded_count_of_isPlainRowId hplain
        · exact absurd rfl hne
    · have hcounts : ¬ (function = .count ∧ Term.isRowId operand = true) := fun h => hcount h.1
      by_cases hfolds : st.FoldsValuesOf (Term.readTables operand)
      · refine iff_of_true ?_ (Or.inr (Or.inr ⟨hcount, hfolds⟩))
        exact Assembler.isGuarded_of_exists_marker hsql hcounts hfunction (hmarker.mpr hfolds)
      · rw [Assembler.aggregate_of_not_exists_marker hcounts hfunction (mt hmarker.mp hfolds)]
        refine iff_of_false (fun h => hcount (h.of_case_notMem
          (TermWriter.case_notMem_aggregate _ _
            (TermWriter.case_notMem_of_isRowId hrow) false)).1) ?_
        rintro (h | ⟨h, -⟩ | ⟨-, h⟩)
        · cases h
        · exact hcount h
        · exact hfolds h

/-- An aggregate of a statement whose rows are not repeated is written as it stands. -/
theorem aggregate_of_not_isRepeated
    (hms : (st.assembler engine).markers st.kept st.draft = .ok ms) {function : Aggregate}
    {operand : Term} (hfunction : function.countsDuplicates = true)
    (hne : Term.readTables operand ≠ []) (h : ¬ st.IsRepeated (Term.readTables operand))
    (value : Fragment) :
    ((st.assembler engine).outerWriter ms).aggregate function operand value =
      engine.aggregate function value
        (decide (function = .count ∧ Term.isRowId operand = true)) := by
  by_cases hcount : function = .count ∧ Term.isRowId operand = true
  · rw [decide_eq_true hcount, hcount.1, TermWriter.aggregate_count_of_isRowId hcount.2]
    rfl
  · rw [decide_eq_false hcount]
    exact Assembler.aggregate_of_not_exists_marker hcount hfunction
      (fun hm => h ((exists_marker_iff hms hne).mp hm).1) value

end Stages

/-- **Which aggregates are guarded.** Every count, sum or mean of an accepted query that reads a
table is written in the item of its output, and the statement is grouped by the group keys. If a
collection repeats its rows, then the aggregate is guarded, whatever the other outputs are, if it is
none of a row number or counts plain row numbers. It is not guarded if it counts a function of row
numbers. A sum or a mean of row numbers is guarded just if some other aggregate reads the same table
and is none of a row number. If no collection repeats its rows, it is written as it stands. -/
theorem isGuarded_iff_of_compile {settings : Settings} {q : QuerySpec} {mapping : Expr}
    {query : Query} {n n' : Nat} (h : (q.compile settings mapping).run n = .ok (query, n')) :
    ∃ st, ∃ w : TermWriter, q.stages settings.naming mapping = .ok st ∧ w.engine = settings.engine ∧
      ∀ p ∈ st.draft.outputs, ∀ x ∈ p.value.aggregates, x.1.countsDuplicates = true →
        Term.readTables x.2 ≠ [] →
        let written := w.aggregate x.1 x.2 (w.term x.2)
        query.sql.GroupsBy st.groupKeys ∧
        Fragment.named (w.term p.value) p.name <:+: query.sql ∧ Occurs written (w.term p.value) ∧
        (st.IsRepeated (Term.readTables x.2) →
          (w.IsGuarded query.sql st.groupKeys x.1 x.2 written ↔
            Term.isRowId x.2 = false ∨ (x.1 = .count ∧ Term.isPlainRowId x.2 = true) ∨
              (x.1 ≠ .count ∧ st.FoldsValuesOf (Term.readTables x.2)))) ∧
        (¬ st.IsRepeated (Term.readTables x.2) →
          written = w.engine.aggregate x.1 (w.term x.2)
            (decide (x.1 = .count ∧ Term.isRowId x.2 = true))) := by
  obtain ⟨st, assembled, hst, hassembled, rfl⟩ := QuerySpec.compile_run_eq_ok_iff.mp h
  obtain ⟨-, -, ms, source, hms, hsource, hsql⟩ := Assembler.assemble_run_eq_ok hassembled
  refine ⟨st, (st.assembler settings.engine).outerWriter ms, hst, rfl,
    fun p hp x hx hfunction hne => ?_⟩
  obtain ⟨o, ho, hvalue⟩ := List.mem_map.mp
    (st.draft_collects.values ▸ List.mem_map_of_mem (f := Projected.value) hp)
  have hgrouped := Stages.isGrouped_of_mem_aggregates ho (hvalue ▸ hx)
  -- An aggregate makes the statement a grouped one.
  have hkeys : (st.assembler settings.engine).keysOf st.outputs st.draft = st.groupKeys :=
    if_pos hgrouped
  refine ⟨Stages.groupsBy_of_assemble hassembled hgrouped,
    (Assembler.infix_projection _ hp).trans ?_, TermWriter.occurs_term _ p.value x hx,
    fun hrepeated => Stages.isGuarded_iff hms (fun m hm => ?_) hp hx hfunction hne hrepeated,
    fun h => Stages.aggregate_of_not_isRepeated hms hfunction hne h _⟩
  · rw [hsql]
    simp only [List.append_assoc]
    exact (List.prefix_append _ _).isInfix
  · obtain ⟨rows, rfl, hcolumn⟩ := Assembler.infix_markerColumn (hkeys ▸ hsource) hm
    refine ⟨rows, ?_, hcolumn⟩
    rw [hsql]
    simp only [List.append_assoc]
    exact (List.infix_append' [.token .from_] _ _).trans (List.suffix_append _ _).isInfix

/-- People, their classes and their tutors. -/
def peopleWithTutors : QuerySpec where
  primary := people.primary
  joins := [classJoin, {
    path := "tutors"
    table := ⟨"tutor", [⟨"id", none, .integer⟩, ⟨"person_id", none, .integer⟩]⟩
    cardinality := .many
    kind := .left
    condition := .binary .eq (shapeField "tutors" "person_id") (shapeField "person" "id") }]

/-- The sum of the row numbers of each person's classes, and the number of the tutors. -/
def summedRowNumbers : Expr :=
  .object [("sum", .aggregate .sum (.select (.member .row "classes") "c" .rowNumber)),
    ("count", .aggregate .count (.member .row "tutors"))]

/-- Each tutor repeats the rows that the sum takes, and the sum is not guarded. The classes repeat
the rows that are counted, and the count is guarded. -/
theorem isGuarded_iff_of_compile_summedRowNumbers :
    ∃ query n' st, ∃ w : TermWriter,
      (peopleWithTutors.compile {} summedRowNumbers).run 0 = .ok (query, n') ∧
      peopleWithTutors.stages .snakeCase summedRowNumbers = .ok st ∧
      (∃ p ∈ st.draft.outputs, ∃ x ∈ p.value.aggregates, x.1 = .sum ∧
        st.IsRepeated (Term.readTables x.2) ∧
        Occurs (w.aggregate x.1 x.2 (w.term x.2)) (w.term p.value) ∧
        ¬ w.IsGuarded query.sql st.groupKeys x.1 x.2 (w.aggregate x.1 x.2 (w.term x.2))) ∧
      ∃ p ∈ st.draft.outputs, ∃ x ∈ p.value.aggregates, x.1 = .count ∧
        st.IsRepeated (Term.readTables x.2) ∧
        w.IsGuarded query.sql st.groupKeys x.1 x.2 (w.aggregate x.1 x.2 (w.term x.2)) := by
  have hrun : ((peopleWithTutors.compile {} summedRowNumbers).run 0).any
      (fun x => x.2 == 0) = true := by decide +kernel
  have hstages : (peopleWithTutors.stages .snakeCase summedRowNumbers).any (fun st =>
      (st.draft.outputs.all fun p => p.value.aggregates.all fun x => Term.isRowId x.2) &&
      (st.draft.outputs.any fun p => p.value.aggregates.any fun x =>
        x.1 == .sum && Term.readTables x.2 == [1]) &&
      (st.draft.outputs.any fun p => p.value.aggregates.any fun x =>
        x.1 == .count && Term.isPlainRowId x.2 && Term.readTables x.2 == [2]) &&
      [1, 2].all fun t => st.kept.contains t && st.statement.cardinality t == .many &&
        !st.draft.rowIdTables.contains t) = true := by decide +kernel
  obtain ⟨⟨query, n'⟩, hquery, -⟩ := Result.any_eq_true_iff.mp hrun
  obtain ⟨st', hst', hfacts⟩ := Result.any_eq_true_iff.mp hstages
  obtain ⟨st, w, hst, -, hguarded⟩ := isGuarded_iff_of_compile hquery
  obtain rfl : st' = st := Except.ok.inj (hst'.symm.trans hst)
  simp only [Bool.and_eq_true, Bool.not_eq_true', beq_iff_eq, List.any_eq_true, List.all_eq_true,
    List.contains_eq_mem, decide_eq_true_eq, decide_eq_false_iff_not] at hfacts
  obtain ⟨⟨⟨hrows, p, hp, x, hx, hsum, hread⟩, p', hp', x', hx', ⟨hcount, hplain⟩, hread'⟩,
    hkept⟩ := hfacts
  have hrepeated : ∀ t ∈ [1, 2], ∀ tables, t ∉ tables → st'.IsRepeated tables :=
    fun t ht tables hnot => ⟨t, (hkept t ht).1.1, (hkept t ht).1.2, hnot, (hkept t ht).2⟩
  have hclasses : st'.IsRepeated (Term.readTables x.2) :=
    hread ▸ hrepeated 2 (by simp) [1] (by simp)
  have htutors : st'.IsRepeated (Term.readTables x'.2) :=
    hread' ▸ hrepeated 1 (by simp) [2] (by simp)
  obtain ⟨-, -, hoccurs, hiff, -⟩ := hguarded p hp x hx (hsum ▸ rfl) (by simp [hread])
  obtain ⟨-, -, -, hiff', -⟩ := hguarded p' hp' x' hx' (hcount ▸ rfl) (by simp [hread'])
  refine ⟨query, n', st', w, hquery, hst', ⟨p, hp, x, hx, hsum, hclasses, hoccurs, fun h => ?_⟩,
    p', hp', x', hx', hcount, htutors, (hiff' htutors).mpr (Or.inr (Or.inl ⟨hcount, hplain⟩))⟩
  rcases (hiff hclasses).mp h with hrow | ⟨hcount, -⟩ | ⟨-, o, ho, y, hy, -, hrow, -⟩
  · cases hrow.symm.trans (hrows p hp x hx)
  · cases hsum.symm.trans hcount
  · cases hrow.symm.trans (hrows o ho y hy)

end NestedQuery
