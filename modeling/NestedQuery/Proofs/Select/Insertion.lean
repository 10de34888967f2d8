import Mathlib.Data.List.Sort
import NestedQuery.Proofs.Query.Insertion
import NestedQuery.Proofs.Select.Grouped
import NestedQuery.Proofs.Select.Renumbering

/-!
# Statements with a pruned join more

If a join is not kept, the other tables are kept just as they are without it
(`Statement.Inserts.kept_eq`), and what is assembled is the same up to the numbers of tables and
parameters (`Assembler.Inserts.assemble`).
-/

namespace NestedQuery

/-! ### Kept tables -/

namespace Statement.Inserts

variable {k m d : Nat} {j : Join} {s s' : Statement}

theorem mem_tableIds_iff (h : Inserts (.insertion k m d) k j s s') {t : TableId} :
    (Embedding.insertion k m d).table t ∈ s'.tableIds ↔ t ∈ s.tableIds := by
  have hplace : k + 1 ≤ s.sources.length := by
    rw [Statement.sources, List.length_cons, List.length_map]
    exact Nat.succ_le_succ h.place
  rw [Statement.tableIds, Statement.tableIds, List.mem_range, List.mem_range, h.sources,
    List.length_insertIdx_of_le_length hplace]
  exact shiftFrom_lt_succ_iff hplace

theorem isFixed (h : Inserts (.insertion k m d) k j s s') (t : TableId) :
    s'.isFixed ((Embedding.insertion k m d).table t) = s.isFixed t := by
  rw [Statement.isFixed, h.join?, Statement.isFixed]
  cases s.join? t <;> rfl

theorem clauseNeeds (h : Inserts (.insertion k m d) k j s s') :
    s'.clauseNeeds = s.clauseNeeds.map (Embedding.insertion k m d).table := by
  rw [Statement.clauseNeeds, h.filter, h.order, Statement.clauseNeeds, List.map_append,
    List.flatMap_map, List.map_flatMap]
  refine congrArg₂ (· ++ ·) ?_ (List.flatMap_congr fun key _ => Term.neededTables_embed _ key.1)
  cases s.filter? with
  | none => rfl
  | some t => exact Term.neededTables_embed _ t

theorem joinNeeds (h : Inserts (.insertion k m d) k j s s') (t : TableId) :
    s'.joinNeeds ((Embedding.insertion k m d).table t) =
      (s.joinNeeds t).map (Embedding.insertion k m d).table := by
  rw [Statement.joinNeeds, h.join?, Statement.joinNeeds]
  cases s.join? t with
  | none => rfl
  | some j' =>
    show (Option.map _ (j'.on?.map _)).getD [] = _
    cases hon : j'.on? with
    | none =>
      show [] = List.map _ ((Option.map _ j'.on?).getD [])
      rw [hon]
      rfl
    | some on =>
      show Term.neededTables (on.embed _) = List.map _ ((Option.map _ j'.on?).getD [])
      rw [hon]
      exact Term.neededTables_embed _ on

/-- What is needed in the smaller statement is needed in the larger one. -/
theorem isNeeded_table (h : Inserts (.insertion k m d) k j s s') {needed : List TableId}
    {t : TableId} (ht : s.IsNeeded needed t) :
    s'.IsNeeded (needed.map (Embedding.insertion k m d).table)
      ((Embedding.insertion k m d).table t) := by
  induction ht with
  | fixed hids hfixed => exact .fixed (h.mem_tableIds_iff.mpr hids) ((h.isFixed _).trans hfixed)
  | needed hids hneeded => exact .needed (h.mem_tableIds_iff.mpr hids) (List.mem_map_of_mem hneeded)
  | clause hids hclause =>
    exact .clause (h.mem_tableIds_iff.mpr hids) (h.clauseNeeds ▸ List.mem_map_of_mem hclause)
  | condition _ hids hneeds ih =>
    exact .condition ih (h.mem_tableIds_iff.mpr hids) (h.joinNeeds _ ▸ List.mem_map_of_mem hneeds)

/-- If the larger statement does not need the join, it needs no more than the smaller one. -/
theorem exists_isNeeded (h : Inserts (.insertion k m d) k j s s') {needed : List TableId}
    (hpruned : ¬ s'.IsNeeded (needed.map (Embedding.insertion k m d).table) (k + 1))
    {t' : TableId} (ht : s'.IsNeeded (needed.map (Embedding.insertion k m d).table) t') :
    ∃ t, (Embedding.insertion k m d).table t = t' ∧ s.IsNeeded needed t := by
  -- The table is needed itself, so it is not that of the join.
  have hplace : ∀ {u'}, s'.IsNeeded (needed.map (Embedding.insertion k m d).table) u' →
      ∃ u, (Embedding.insertion k m d).table u = u' := fun hu =>
    exists_shiftFrom_eq fun heq => hpruned (heq ▸ hu)
  induction ht with
  | fixed hids hfixed =>
    obtain ⟨t, rfl⟩ := hplace (.fixed hids hfixed)
    exact ⟨t, rfl, .fixed (h.mem_tableIds_iff.mp hids) ((h.isFixed t).symm.trans hfixed)⟩
  | needed hids hneeded =>
    obtain ⟨t, ht, rfl⟩ := List.mem_map.mp hneeded
    exact ⟨t, rfl, .needed (h.mem_tableIds_iff.mp hids) ht⟩
  | clause hids hclause =>
    rw [h.clauseNeeds] at hclause
    obtain ⟨t, ht, rfl⟩ := List.mem_map.mp hclause
    exact ⟨t, rfl, .clause (h.mem_tableIds_iff.mp hids) ht⟩
  | condition _ hids hneeds ih =>
    obtain ⟨u, rfl, hu⟩ := ih
    rw [h.joinNeeds] at hneeds
    obtain ⟨t, ht, rfl⟩ := List.mem_map.mp hneeds
    exact ⟨t, rfl, .condition hu (h.mem_tableIds_iff.mp hids) ht⟩

theorem pairwise_kept (s : Statement) (needed : List TableId) :
    (s.kept needed).Pairwise (· < ·) := by
  obtain ⟨p, hp⟩ := s.kept_eq_filter needed
  rw [hp]
  exact List.pairwise_lt_range.filter p

/-- **A join that is not kept** leaves the other tables as they are. -/
theorem kept_eq (h : Inserts (.insertion k m d) k j s s') {needed : List TableId}
    (hpruned : k + 1 ∉ s'.kept (needed.map (Embedding.insertion k m d).table)) :
    s'.kept (needed.map (Embedding.insertion k m d).table) =
      (s.kept needed).map (Embedding.insertion k m d).table := by
  have hmono : ((s.kept needed).map (Embedding.insertion k m d).table).Pairwise (· < ·) :=
    List.pairwise_map.mpr
      ((pairwise_kept s needed).imp fun hlt => (Embedding.insertion k m d).strictMono hlt)
  refine (pairwise_kept s' _).eq_of_mem_iff hmono fun t' => ?_
  rw [Statement.mem_kept_iff] at hpruned ⊢
  rw [List.mem_map]
  simp only [Statement.mem_kept_iff]
  constructor
  · intro ht
    obtain ⟨t, htable, ht⟩ := h.exists_isNeeded hpruned ht
    exact ⟨t, ht, htable⟩
  · rintro ⟨t, ht, rfl⟩
    exact h.isNeeded_table ht

end Statement.Inserts

/-! ### Assembling -/

namespace Assembler

/-- The assembler `a'` is `a` with the join `j` behind the first `k` ones. -/
structure Inserts (f : Embedding) (k : Nat) (j : Join) (a a' : Assembler) : Prop where
  statement : a.statement.Inserts f k j a'.statement
  extension : a.statement.Extends f j.path a'.statement
  table : f.table = shiftFrom (k + 1)
  isExpanded : ∀ id, a'.pool.isExpanded (f.param id) = a.pool.isExpanded id
  engine : a'.engine = a.engine

/-- The tables, columns and outputs have names of the query's own. -/
structure IsNamed (own : List String) (a : Assembler) (d : Draft) : Prop where
  tables : ∀ t ∈ a.statement.sources, IsOwnName own t.table.name
  rowIds : ∀ name ∈ a.engine.rowIds.names, IsOwnName own name
  conditions : ∀ j ∈ a.statement.joins, ∀ on ∈ j.on?, Term.IsNamed own on
  filter : ∀ t ∈ a.statement.filter?, Term.IsNamed own t
  order : ∀ key ∈ a.statement.order, Term.IsNamed own key.1
  outputs : ∀ p ∈ d.outputs, Term.IsNamed own p.value
  names : ∀ p ∈ d.outputs, IsOwnName own p.name

variable {f : Embedding} {own : List String} {k : Nat} {j : Join} {a a' : Assembler} {d : Draft}

/-! #### Joined rows -/

theorem Inserts.writer (h : Inserts f k j a a') : a.writer.Renumbers f own a'.writer where
  engine := h.engine
  isExpanded := h.isExpanded
  markers := rfl
  names _ hm := absurd hm List.not_mem_nil

section

variable {js : List Join} {kept : List TableId}

theorem Inserts.joinClause (h : Inserts f k j a a')
    (hrowIds : ∀ name ∈ a.engine.rowIds.names, IsOwnName own name) {j' : Join}
    (htable : IsOwnName own j'.table.name) (hon : ∀ on ∈ j'.on?, Term.IsNamed own on)
    (t : TableId) :
    Assembly.Matches (Fragment.Renumbers f own) (a.joinClause t j')
      (a'.joinClause (f.table t) (j'.embed f)) := by
  unfold Assembler.joinClause Join.embed
  cases hcondition : j'.on? with
  | none => exact .throw _ _
  | some on =>
    dsimp only [Option.map_some]
    rw [h.engine]
    refine (tableSource_matches a.engine htable hrowIds t).bind fun g g' hg => .pure ?_
    have hkind : Fragment.Renumbers f own [.token (joinToken j'.kind), .token .join]
        [.token (joinToken j'.kind), .token .join] := .refl rfl
    have hterm := h.writer.term on (hon on hcondition)
    exact ((hkind.append hg).append (.refl rfl)).append hterm

/-- A join that is not kept has no clause. -/
theorem joinClauses_cons (a : Assembler) (kept : List TableId) (t : TableId) (j : Join)
    (js : List Join) :
    a.joinClauses kept t (j :: js) =
      (if kept.contains t then a.joinClause t j else pure []) >>= fun clause =>
        a.joinClauses kept (t + 1) js >>= fun rest => pure (clause ++ rest) := by
  rw [Assembler.joinClauses]
  by_cases hkept : kept.contains t
  · rw [if_pos hkept, if_pos hkept]
  · rw [if_neg hkept, if_neg hkept]

/-- The clause of a join of the smaller statement, if it is kept. -/
theorem Inserts.joinClause_ite (h : Inserts f k j a a') (kept : List TableId)
    (hrowIds : ∀ name ∈ a.engine.rowIds.names, IsOwnName own name) {j' : Join}
    (htable : IsOwnName own j'.table.name) (hon : ∀ on ∈ j'.on?, Term.IsNamed own on)
    (t : TableId) :
    Assembly.Matches (Fragment.Renumbers f own)
      (if kept.contains t then a.joinClause t j' else pure [])
      (if (kept.map f.table).contains (f.table t) then a'.joinClause (f.table t) (j'.embed f)
        else pure []) := by
  rw [contains_map f.strictMono.injective]
  split
  · exact h.joinClause hrowIds htable hon t
  · exact .pure .nil

/-- Joins that stand together in both statements. -/
theorem Inserts.joinClauses (h : Inserts f k j a a')
    (hrowIds : ∀ name ∈ a.engine.rowIds.names, IsOwnName own name)
    (htables : ∀ j' ∈ js, IsOwnName own j'.table.name)
    (hconditions : ∀ j' ∈ js, ∀ on ∈ j'.on?, Term.IsNamed own on) (t t' : TableId)
    (ht : ∀ i < js.length, f.table (t + i) = t' + i) :
    Assembly.Matches (Fragment.Renumbers f own) (a.joinClauses kept t js)
      (a'.joinClauses (kept.map f.table) t' (js.map (Join.embed f))) := by
  induction js generalizing t t' with
  | nil => exact .pure .nil
  | cons j' js ih =>
    obtain ⟨htable, htables⟩ := List.forall_mem_cons.mp htables
    obtain ⟨hcondition, hconditions⟩ := List.forall_mem_cons.mp hconditions
    -- All of these joins are on one side of the new one, so their numbers move together.
    obtain rfl : f.table t = t' := ht 0 (Nat.succ_pos _)
    have hrest := ih htables hconditions (t + 1) (f.table t + 1) fun i hi => by
      have hnext := ht (i + 1) (Nat.succ_lt_succ hi)
      rwa [Nat.add_comm i 1, ← Nat.add_assoc, ← Nat.add_assoc] at hnext
    rw [List.map_cons]
    rw [joinClauses_cons, joinClauses_cons]
    exact (h.joinClause_ite kept hrowIds htable hcondition t).bind fun g g' hg =>
      hrest.bind fun e e' he => .pure (hg.append he)

/-- All joins, with the one that is not kept among those of the larger statement. -/
theorem Inserts.joinClauses_insertIdx (h : Inserts f k j a a')
    (hrowIds : ∀ name ∈ a.engine.rowIds.names, IsOwnName own name)
    (htables : ∀ j' ∈ js, IsOwnName own j'.table.name)
    (hconditions : ∀ j' ∈ js, ∀ on ∈ j'.on?, Term.IsNamed own on) (t i : Nat) (hi : i ≤ js.length)
    (ht : t + i = k + 1) :
    Assembly.Matches (Fragment.Renumbers f own) (a.joinClauses kept t js)
      (a'.joinClauses (kept.map f.table) t ((js.map (Join.embed f)).insertIdx i j)) := by
  induction i generalizing t js with
  | zero =>
    -- The new join comes first. It is not kept, so its clause is empty.
    obtain rfl : t = k + 1 := ht
    have hnot : ¬ (kept.map f.table).contains (k + 1) = true := by
      rw [List.contains_iff_mem, List.mem_map]
      rintro ⟨u, -, hu⟩
      exact shiftFrom_ne (k + 1) u (h.table ▸ hu)
    rw [List.insertIdx_zero, joinClauses_cons, if_neg hnot, pure_bind]
    simp only [List.nil_append, bind_pure]
    refine h.joinClauses hrowIds htables hconditions (k + 1) (k + 2) fun i _ => ?_
    rw [h.table]
    exact (shiftFrom_of_le (Nat.le_add_right _ _)).trans (Nat.add_right_comm _ _ _)
  | succ i ih =>
    cases js with
    | nil => cases hi
    | cons j' js =>
      obtain ⟨htable, htables⟩ := List.forall_mem_cons.mp htables
      obtain ⟨hcondition, hconditions⟩ := List.forall_mem_cons.mp hconditions
      have hrest := ih htables hconditions (t + 1) (Nat.le_of_succ_le_succ hi)
        ((Nat.add_right_comm t 1 i).trans ht)
      -- A join before the new one keeps its number.
      have hplace : f.table t = t := by
        rw [h.table]
        exact shiftFrom_of_lt (ht ▸ Nat.lt_add_of_pos_right (Nat.succ_pos i))
      have hclause := h.joinClause_ite kept hrowIds htable hcondition t
      rw [hplace] at hclause
      rw [List.map_cons, List.insertIdx_succ_cons, joinClauses_cons, joinClauses_cons]
      exact hclause.bind fun g g' hg => hrest.bind fun e e' he => .pure (hg.append he)

end

theorem Inserts.sources (h : Inserts f k j a a') (hn : a.IsNamed own d) (kept : List TableId) :
    Assembly.Matches (Fragment.Renumbers f own) (a.sources kept)
      (a'.sources (kept.map f.table)) := by
  unfold Assembler.sources
  rw [h.engine, h.extension.primary, h.statement.joins, h.statement.filter]
  have hprimary := tableSource_matches (f := f) a.engine
    (hn.tables _ (List.mem_cons_self ..)) hn.rowIds 0
  rw [f.table_zero] at hprimary
  refine hprimary.bind fun g g' hg => ?_
  have htables : ∀ j' ∈ a.statement.joins, IsOwnName own j'.table.name := fun j' hj' =>
    hn.tables j'.toSource (List.mem_cons_of_mem _ (List.mem_map_of_mem hj'))
  refine (h.joinClauses_insertIdx hn.rowIds htables hn.conditions 1 k h.statement.place
    (Nat.add_comm 1 k)).bind fun e e' he => ?_
  cases hfilter : a.statement.filter? with
  | none => exact .pure (hg.append he)
  | some filter =>
    have hterm := h.writer.term filter (hn.filter filter hfilter)
    exact .pure (((hg.append he).append (.refl (g := [.token .where_]) rfl)).append hterm)

/-! #### Group keys and markers -/

theorem isNamed_of_mem_columns {t : Term} (ht : Term.IsNamed own t) {c : ColumnRef}
    (hc : c ∈ Term.columns t) : c.IsNamed own := by
  obtain ⟨leaf, hleaf, hcolumn⟩ := List.mem_filterMap.mp hc
  exact ht leaf hleaf c hcolumn

theorem isNamed_of_mem_rowColumns {t : Term} (ht : Term.IsNamed own t) {c : ColumnRef}
    (hc : c ∈ rowColumns t) : c.IsNamed own :=
  isNamed_of_mem_columns ht (rowColumns_subset_columns t hc)

/-- Different columns of the smaller statement stay different. -/
theorem eraseDups_embed {cs : List ColumnRef} (hcs : ∀ c ∈ cs, c.IsNamed own) :
    (cs.map (ColumnRef.embed f)).eraseDups = cs.eraseDups.map (ColumnRef.embed f) :=
  eraseDups_map fun c hc c' hc' =>
    ColumnRef.embed_injective (hcs c hc).tableAlias_eq (hcs c' hc').tableAlias_eq

theorem isNamed_of_mem_rowIds (ts : List TableId) : ∀ c ∈ ts.map rowIdRef, c.IsNamed own := by
  intro c hc
  obtain ⟨t, -, rfl⟩ := List.mem_map.mp hc
  exact isNamed_rowIdRef own t

theorem map_rowIdRef_embed (ts : List TableId) :
    (ts.map f.table).map rowIdRef = (ts.map rowIdRef).map (ColumnRef.embed f) := by
  rw [List.map_map, List.map_map]
  rfl

theorem rowIdTables_embed (f : Embedding) (d : Draft) :
    (d.embed f).rowIdTables = d.rowIdTables.map f.table :=
  rfl

/-- The columns of outputs and ordering keys in the larger statement. -/
theorem Inserts.flatMap_columns (h : Inserts f k j a a') {g : Term → List ColumnRef}
    (hg : ∀ t, g (t.embed f) = (g t).map (ColumnRef.embed f)) (d : Draft) :
    (d.embed f).outputs.flatMap (fun o => g o.value) ++
        a'.statement.order.flatMap (fun key => g key.1) =
      (d.outputs.flatMap (fun o => g o.value) ++
        a.statement.order.flatMap fun key => g key.1).map (ColumnRef.embed f) := by
  rw [h.statement.order, Draft.embed, List.flatMap_map, List.flatMap_map, List.map_append,
    List.map_flatMap, List.map_flatMap]
  exact congrArg₂ (· ++ ·) (List.flatMap_congr fun o _ => hg o.value)
    (List.flatMap_congr fun key _ => hg key.1)

theorem IsNamed.flatMap_columns (hn : a.IsNamed own d) {g : Term → List ColumnRef}
    (hg : ∀ t, Term.IsNamed own t → ∀ c ∈ g t, c.IsNamed own) :
    ∀ c ∈ d.outputs.flatMap (fun o => g o.value) ++
      a.statement.order.flatMap (fun key => g key.1), c.IsNamed own := by
  intro c hc
  rcases List.mem_append.mp hc with hc | hc
  · obtain ⟨p, hp, hc⟩ := List.mem_flatMap.mp hc
    exact hg _ (hn.outputs p hp) c hc
  · obtain ⟨key, hkey, hc⟩ := List.mem_flatMap.mp hc
    exact hg _ (hn.order key hkey) c hc

theorem IsNamed.of_mem_groupKeys (hn : a.IsNamed own d) :
    ∀ c ∈ a.groupKeys d, c.IsNamed own := by
  intro c hc
  rw [groupKeys, List.mem_eraseDups] at hc
  exact List.forall_mem_append.mpr ⟨hn.flatMap_columns fun t ht c => isNamed_of_mem_rowColumns ht,
    isNamed_of_mem_rowIds d.rowIdTables⟩ c hc

theorem Inserts.groupKeys (h : Inserts f k j a a') (hn : a.IsNamed own d) :
    a'.groupKeys (d.embed f) = (a.groupKeys d).map (ColumnRef.embed f) := by
  have hnamed := List.forall_mem_append.mpr ⟨hn.flatMap_columns fun t ht c =>
    isNamed_of_mem_rowColumns ht, isNamed_of_mem_rowIds d.rowIdTables⟩
  rw [Assembler.groupKeys, h.flatMap_columns (Term.rowColumns_embed f), rowIdTables_embed,
    map_rowIdRef_embed, ← List.map_append, eraseDups_embed hnamed]
  rfl

theorem IsNamed.of_mem_derivedColumns (hn : a.IsNamed own d) {keys : List ColumnRef}
    (hkeys : ∀ c ∈ keys, c.IsNamed own) : ∀ c ∈ a.derivedColumns d keys, c.IsNamed own := by
  intro c hc
  rw [derivedColumns, List.mem_eraseDups] at hc
  exact List.forall_mem_append.mpr ⟨List.forall_mem_append.mpr ⟨hn.flatMap_columns fun t ht c =>
    isNamed_of_mem_columns ht, hkeys⟩, isNamed_of_mem_rowIds d.rowIdTables⟩ c hc

theorem Inserts.derivedColumns (h : Inserts f k j a a') (hn : a.IsNamed own d)
    {keys : List ColumnRef} (hkeys : ∀ c ∈ keys, c.IsNamed own) :
    a'.derivedColumns (d.embed f) (keys.map (ColumnRef.embed f)) =
      (a.derivedColumns d keys).map (ColumnRef.embed f) := by
  have hnamed := List.forall_mem_append.mpr ⟨List.forall_mem_append.mpr
    ⟨hn.flatMap_columns fun t ht c => isNamed_of_mem_columns ht, hkeys⟩,
    isNamed_of_mem_rowIds d.rowIdTables⟩
  rw [Assembler.derivedColumns, h.flatMap_columns (Term.columns_embed f), rowIdTables_embed,
    map_rowIdRef_embed, ← List.map_append, ← List.map_append, eraseDups_embed hnamed]
  rfl

theorem partition_embed {keys : List ColumnRef} (hkeys : ∀ c ∈ keys, c.IsNamed own) (m : Marker) :
    partition (keys.map (ColumnRef.embed f)) (m.embed f) =
      (partition keys m).map (ColumnRef.embed f) := by
  have hnamed := List.forall_mem_append.mpr ⟨hkeys, isNamed_of_mem_rowIds m.tables⟩
  rw [partition, partition, ← eraseDups_embed hnamed, List.map_append, ← map_rowIdRef_embed]
  rfl

theorem Inserts.isMultiplied (h : Inserts f k j a a') (kept selected read : List TableId) :
    a'.isMultiplied (kept.map f.table) (selected.map f.table) (read.map f.table) =
      a.isMultiplied kept selected read := by
  rw [Assembler.isMultiplied, List.any_map, Assembler.isMultiplied]
  refine congrArg (List.any kept) (funext fun t => ?_)
  rw [Function.comp_apply, h.extension.cardinality, contains_map f.strictMono.injective,
    contains_map f.strictMono.injective]

theorem Inserts.markedTables? (h : Inserts f k j a a') (kept selected : List TableId)
    (function : Aggregate) (operand : Term) :
    a'.markedTables? (kept.map f.table) (selected.map f.table) function (operand.embed f) =
      (a.markedTables? kept selected function operand).map (List.map f.table) := by
  unfold Assembler.markedTables?
  dsimp only
  rw [Term.readTables_embed, Term.isRowId_embed, List.isEmpty_map, h.isMultiplied,
    apply_ite (Option.map (List.map f.table))]
  rfl

/-- The tables of the aggregates that need markers in the larger statement. -/
theorem Inserts.markedTables (h : Inserts f k j a a') (kept : List TableId) (d : Draft) :
    (d.embed f).outputs.flatMap (fun o => o.value.aggregates.filterMap fun x =>
        a'.markedTables? (kept.map f.table) (d.embed f).rowIdTables x.1 x.2) =
      (d.outputs.flatMap fun o => o.value.aggregates.filterMap fun x =>
        a.markedTables? kept d.rowIdTables x.1 x.2).map (List.map f.table) := by
  rw [Draft.embed, List.flatMap_map, List.map_flatMap]
  refine List.flatMap_congr fun o _ => ?_
  dsimp only
  rw [Term.embed, Accumulator.aggregates_map, List.filterMap_map, List.map_filterMap]
  exact List.filterMap_congr fun x _ => h.markedTables? kept d.rowIdTables x.1 x.2

theorem Inserts.markers (h : Inserts f k j a a') (own : List String) (kept : List TableId)
    (d : Draft) :
    (a.markers kept d).Matches
      (fun ms ms' => ms' = ms.map (Marker.embed f) ∧ ∀ m ∈ ms, IsOwnName own m.name)
      (a'.markers (kept.map f.table) (d.embed f)) := by
  have hinj : Function.Injective (List.map f.table) :=
    List.map_injective_iff.mpr f.strictMono.injective
  unfold Assembler.markers
  simp only [h.markedTables, h.engine]
  generalize d.outputs.flatMap _ = needed
  -- Renumbering the tables merges no two lists, so the markers keep their numbers.
  have hmarkers : (needed.map (List.map f.table)).eraseDups.zipIdx.map
        (fun x => (⟨s!"##d{x.2}", x.1⟩ : Marker)) =
      (needed.eraseDups.zipIdx.map fun x => (⟨s!"##d{x.2}", x.1⟩ : Marker)).map
        (Marker.embed f) := by
    rw [eraseDups_map fun _ _ _ _ heq => hinj heq, List.zipIdx_map, List.map_map, List.map_map]
    rfl
  have hnames : ∀ ts : List (List TableId),
      ∀ m ∈ ts.zipIdx.map fun x => (⟨s!"##d{x.2}", x.1⟩ : Marker), IsOwnName own m.name := by
    intro ts m hm
    obtain ⟨x, -, rfl⟩ := List.mem_map.mp hm
    exact isOwnName_append (c := '#') rfl (by decide) _
  rw [hmarkers]
  -- An engine that emulates row numbers refuses both statements.
  match needed, a.engine.rowIds with
  | [], _ | [] :: _, _ | (_ :: _) :: _, .window | (_ :: _) :: _, .native _ =>
    exact ⟨rfl, hnames _⟩
  | (_ :: _) :: _, .emulated _ => exact trivial

/-! #### Clauses -/

theorem Inserts.outerWriter (h : Inserts f k j a a') {ms : List Marker}
    (hms : ∀ m ∈ ms, IsOwnName own m.name) :
    (a.outerWriter ms).Renumbers f own (a'.outerWriter (ms.map (Marker.embed f))) where
  engine := h.engine
  isExpanded := h.isExpanded
  markers := by
    cases ms with
    | nil => rfl
    | cons m ms => rfl
  names m hm := by
    cases ms with
    | nil => exact absurd hm List.not_mem_nil
    | cons m' ms => exact hms m hm

section

variable {w w' : TermWriter} (hw : w.Renumbers f own w')

include hw

theorem columns_renumbers {cs : List ColumnRef} (hcs : ∀ c ∈ cs, c.IsNamed own) :
    Fragment.Renumbers f own (Fragment.joined (cs.map w.column) .comma)
      (Fragment.joined ((cs.map (ColumnRef.embed f)).map w'.column) .comma) := by
  rw [List.map_map]
  exact .joined (forall₂_map_map fun c hc => hw.column (hcs c hc))

theorem projection_renumbers (hn : a.IsNamed own d)
    (hd : d.plan.rowIds = d.rowIdTables.map rowIdNameOf) :
    Fragment.Renumbers f own (projection w d) (projection w' (d.embed f)) := by
  -- Row numbers are named after their tables, and these names are renumbered too.
  have hzip : ∀ ts : List TableId,
      (ts.map rowIdNameOf).zip ts = ts.map fun t => (rowIdNameOf t, t) := fun ts => by
      induction ts with
      | nil => rfl
      | cons t ts ih => exact congrArg (_ :: ·) ih
  have houtputs : List.Forall₂ (Fragment.Renumbers f own)
      (d.outputs.map fun o => (w.term o.value).named o.name)
      ((d.embed f).outputs.map fun o => (w'.term o.value).named o.name) := by
    rw [Draft.embed, List.map_map]
    exact forall₂_map_map fun p hp =>
      (hw.term p.value (hn.outputs p hp)).named (.same (hn.names p hp))
  have hrowIds : List.Forall₂ (Fragment.Renumbers f own)
      ((d.plan.rowIds.zip d.rowIdTables).map fun x => (w.column (rowIdRef x.2)).named x.1)
      (((d.embed f).plan.rowIds.zip (d.embed f).rowIdTables).map
        fun x => (w'.column (rowIdRef x.2)).named x.1) := by
    show List.Forall₂ _ _ ((((d.rowIdTables.map f.table).map rowIdNameOf).zip
      (d.rowIdTables.map f.table)).map _)
    rw [hd, hzip, hzip, List.map_map, List.map_map, List.map_map]
    exact forall₂_map_map fun t _ =>
      (hw.column (isNamed_rowIdRef own t)).named (rowIdName_renumbers t)
  exact (Fragment.Renumbers.joined (List.rel_append houtputs hrowIds)).token .select

theorem Inserts.ordering (h : Inserts f k j a a') (hn : a.IsNamed own d) :
    Fragment.Renumbers f own (a.ordering w d) (a'.ordering w' (d.embed f)) := by
  have hkeys : List.Forall₂ (Fragment.Renumbers f own)
      (a.statement.order.map fun key => w.term key.1 ++ [.token (directionToken key.2)])
      (a'.statement.order.map fun key => w'.term key.1 ++ [.token (directionToken key.2)]) := by
    rw [h.statement.order, List.map_map]
    exact forall₂_map_map fun key hkey => (hw.term key.1 (hn.order key hkey)).append (.refl rfl)
  have hlevels : List.Forall₂ (Fragment.Renumbers f own)
      (d.plan.levels.map fun l => w.column (rowIdRef ((d.rowIdTables[l.rowId]?).getD 0)))
      (d.plan.levels.map
        fun l => w'.column (rowIdRef (((d.rowIdTables.map f.table)[l.rowId]?).getD 0))) := by
    refine forall₂_map_map fun l _ => ?_
    -- A level without a table reads the primary one, which keeps its number.
    have htable : ((d.rowIdTables.map f.table)[l.rowId]?).getD 0 =
        f.table ((d.rowIdTables[l.rowId]?).getD 0) := by
      rw [List.getElem?_map]
      cases d.rowIdTables[l.rowId]? with
      | none => exact f.table_zero.symm
      | some t => rfl
    rw [htable]
    exact hw.column (isNamed_rowIdRef own _)
  exact .append (.refl (g := [.token .order, .token .by_]) rfl)
    (.joined (List.rel_append hkeys hlevels))

theorem groupClause_renumbers (outputs : List (Output Cell)) {keys : List ColumnRef}
    (hkeys : ∀ c ∈ keys, c.IsNamed own) :
    Fragment.Renumbers f own (groupClause w outputs keys)
      (groupClause w' outputs (keys.map (ColumnRef.embed f))) := by
  unfold groupClause
  split
  · exact .append (.refl (g := [.token .group, .token .by_]) rfl) (columns_renumbers hw hkeys)
  · exact .nil

end

theorem paging_renumbers (e : Engine) (skip? take? : Option Nat) :
    Fragment.Renumbers f own ((e.paging skip? take?).getD []) ((e.paging skip? take?).getD []) := by
  refine .refl ?_
  cases skip? <;> cases take? <;> rfl

theorem Inserts.markerColumn (h : Inserts f k j a a') {keys : List ColumnRef}
    (hkeys : ∀ c ∈ keys, c.IsNamed own) {m : Marker} (hm : IsOwnName own m.name) :
    Fragment.Renumbers f own (a.markerColumn keys m)
      (a'.markerColumn (keys.map (ColumnRef.embed f)) (m.embed f)) := by
  have hpartition : ∀ c ∈ partition keys m, c.IsNamed own := fun c hc => by
    rw [partition, List.mem_eraseDups] at hc
    exact List.forall_mem_append.mpr ⟨hkeys, isNamed_of_mem_rowIds m.tables⟩ c hc
  unfold Assembler.markerColumn
  rw [partition_embed hkeys]
  have hcolumns : Fragment.Renumbers f own (.raw "PARTITION BY" :: _) (.raw "PARTITION BY" :: _) :=
    .cons (.raw _) (columns_renumbers h.writer hpartition)
  exact .named (.append (.refl (g := Fragment.call "ROW_NUMBER" [] ++ [.token .over_]) rfl)
    hcolumns.parens) (.same hm)

theorem Inserts.derivedRows (h : Inserts f k j a a') (hn : a.IsNamed own d) (kept : List TableId)
    {keys : List ColumnRef} (hkeys : ∀ c ∈ keys, c.IsNamed own) {ms : List Marker}
    (hms : ∀ m ∈ ms, IsOwnName own m.name) :
    Assembly.Matches (Fragment.Renumbers f own) (a.derivedRows kept d keys ms)
      (a'.derivedRows (kept.map f.table) (d.embed f) (keys.map (ColumnRef.embed f))
        (ms.map (Marker.embed f))) := by
  have hcolumns : List.Forall₂ (Fragment.Renumbers f own)
      ((a.derivedColumns d keys).map fun c => (a.writer.column c).named (derivedName c))
      (((a.derivedColumns d keys).map (ColumnRef.embed f)).map
        fun c => (a'.writer.column c).named (derivedName c)) := by
    rw [List.map_map]
    refine forall₂_map_map fun c hc => ?_
    -- A derived name is made of the alias of a table, so it is renumbered like the reference.
    have hc := hn.of_mem_derivedColumns hkeys c hc
    exact (h.writer.column hc).named (derivedName_renumbers hc.tableAlias_eq)
  have hmarkers : List.Forall₂ (Fragment.Renumbers f own) (ms.map (a.markerColumn keys))
      ((ms.map (Marker.embed f)).map (a'.markerColumn (keys.map (ColumnRef.embed f)))) := by
    rw [List.map_map]
    exact forall₂_map_map fun m hm => h.markerColumn hkeys (hms m hm)
  unfold Assembler.derivedRows
  rw [h.derivedColumns hn hkeys]
  refine (h.sources hn kept).bind fun g g' hg => .pure ?_
  have hselect := (Fragment.Renumbers.joined (List.rel_append hcolumns hmarkers)).token .select
  exact (hselect.append (.refl (g := [.token .from_]) rfl)).append hg

theorem Inserts.rowSource (h : Inserts f k j a a') (hn : a.IsNamed own d) (kept : List TableId)
    {keys : List ColumnRef} (hkeys : ∀ c ∈ keys, c.IsNamed own) {ms : List Marker}
    (hms : ∀ m ∈ ms, IsOwnName own m.name) :
    Assembly.Matches (Fragment.Renumbers f own) (a.rowSource kept d keys ms)
      (a'.rowSource (kept.map f.table) (d.embed f) (keys.map (ColumnRef.embed f))
        (ms.map (Marker.embed f))) := by
  unfold Assembler.rowSource
  rw [List.isEmpty_map]
  split
  · exact h.sources hn kept
  · exact (h.derivedRows hn kept hkeys hms).bind fun g g' hg =>
      .pure (hg.parens.named (.same (isOwnName_derivedTable own)))

/-! #### The statement -/

/-- The statement and its plan in the larger statement: the plan has the same levels and columns,
and the row numbers of the same tables. -/
def Assembled.Renumbers (f : Embedding) (own : List String) (r r' : Assembled) : Prop :=
  Fragment.Renumbers f own r.sql r'.sql ∧ ∃ ts : List TableId,
    r.plan.rowIds = ts.map rowIdNameOf ∧ r'.plan = r.plan.withRowIds (ts.map f.table)

variable {outputs : List (Output Cell)} {tables : List MappedTable}

/-- What the leaves of the outputs name in the larger statement. -/
theorem filterMap_visit_embed {g : Cell × Bool → Option TableId}
    (hg : ∀ x : Cell × Bool, g (x.1.embed f, x.2) = (g x).map f.table)
    (outputs : List (Output Cell)) :
    ((outputs.map (Output.map (Cell.embed f))).flatMap fun o => o.value.visit.filterMap g) =
      (outputs.flatMap fun o => o.value.visit.filterMap g).map f.table := by
  rw [List.flatMap_map, List.map_flatMap]
  refine List.flatMap_congr fun o _ => ?_
  have hvisit : (o.map (Cell.embed f)).value.visit =
      o.value.visit.map fun x => (x.1.embed f, x.2) := Term.visit_embed f o.value
  rw [hvisit, List.filterMap_map, List.map_filterMap]
  exact List.filterMap_congr fun x _ => hg x

theorem aggregatedTables_embed (f : Embedding) (outputs : List (Output Cell))
    (tables : List MappedTable) :
    aggregatedTables (outputs.map (Output.map (Cell.embed f))) (tables.map (MappedTable.embed f)) =
      (aggregatedTables outputs tables).map f.table := by
  unfold aggregatedTables
  rw [filterMap_visit_embed (f := f) ?_ outputs, List.map_append, List.filter_map, List.map_map,
    List.map_map]
  · rfl
  · rintro ⟨a, beneath⟩
    cases a with
    | param id => cases beneath <;> rfl
    | column c r function type =>
      have hfolded : (f.table c.table != f.table r.table) = (c.table != r.table) :=
        congrArg (!·) (beq_of_injective f.strictMono.injective c.table r.table)
      show (if (beneath && f.table c.table != f.table r.table) = true then _ else _) =
        Option.map f.table (if (beneath && c.table != r.table) = true then _ else _)
      rw [hfolded, apply_ite (Option.map f.table)]
      rfl

theorem rowTables_embed (f : Embedding) (outputs : List (Output Cell))
    (tables : List MappedTable) :
    rowTables (outputs.map (Output.map (Cell.embed f))) (tables.map (MappedTable.embed f)) =
      (rowTables outputs tables).map f.table := by
  unfold rowTables
  rw [filterMap_visit_embed (f := f) ?_ outputs, List.map_append, List.filter_map, List.map_map,
    List.map_map]
  · rfl
  · rintro ⟨a, beneath⟩
    cases beneath <;> cases a <;> rfl

theorem isGrouped_embed (f : Embedding) (outputs : List (Output Cell)) :
    isGrouped (outputs.map (Output.map (Cell.embed f))) = isGrouped outputs := by
  rw [isGrouped, List.any_map, isGrouped]
  refine congrArg (List.any outputs) (funext fun o => ?_)
  show (Accumulator.aggregation Cell.isParam (o.value.map (Cell.embed f)) != .none) = _
  rw [Accumulator.aggregation, Accumulator.aggregation?_map, Accumulator.aggregation]
  refine congrArg (fun p => (o.value.aggregation? p).getD .none != .none) (funext fun a => ?_)
  cases a <;> rfl

theorem groupClause_embed (w : TermWriter) (f : Embedding) (outputs : List (Output Cell))
    (keys : List ColumnRef) :
    groupClause w (outputs.map (Output.map (Cell.embed f))) keys = groupClause w outputs keys := by
  rw [groupClause, isGrouped_embed, groupClause]

/-- A table that is both folded and read row by row is so in both. -/
theorem checkAggregation_matches (a a' : Assembler) (f : Embedding)
    (outputs : List (Output Cell)) (tables : List MappedTable) :
    (a.checkAggregation outputs tables).Matches (fun _ _ => True)
      (a'.checkAggregation (outputs.map (Output.map (Cell.embed f)))
        (tables.map (MappedTable.embed f))) := by
  unfold checkAggregation
  rw [aggregatedTables_embed, rowTables_embed]
  dsimp only
  rw [List.filter_map]
  have hcontains : (((rowTables outputs tables).map f.table).contains ∘ f.table) =
      (rowTables outputs tables).contains :=
    funext fun t => contains_map f.strictMono.injective _ t
  rw [hcontains]
  generalize (aggregatedTables outputs tables).filter _ = mixed
  cases mixed with
  | nil => exact trivial
  | cons t ts =>
    rw [List.map_cons, List.min?_cons', List.min?_cons']
    exact trivial

theorem Inserts.keysOf (h : Inserts f k j a a') (hn : a.IsNamed own d)
    (outputs : List (Output Cell)) :
    a'.keysOf (outputs.map (Output.map (Cell.embed f))) (d.embed f) =
      (a.keysOf outputs d).map (ColumnRef.embed f) := by
  rw [Assembler.keysOf, isGrouped_embed, h.groupKeys hn, Assembler.keysOf,
    apply_ite (List.map (ColumnRef.embed f))]
  rfl

theorem IsNamed.of_mem_keysOf (hn : a.IsNamed own d) (outputs : List (Output Cell)) :
    ∀ c ∈ a.keysOf outputs d, c.IsNamed own := by
  unfold Assembler.keysOf
  split
  · exact hn.of_mem_groupKeys
  · exact List.forall_mem_nil _

/-- Assembling is checking the outputs, choosing the markers and writing the clauses. -/
theorem assemble_eq (a : Assembler) (outputs : List (Output Cell)) (tables : List MappedTable) :
    let d := Draft.ofMapping a.statement tables outputs
    let kept := a.statement.kept d.neededTables
    let keys := a.keysOf outputs d
    a.assemble outputs tables =
      liftM (a.checkAggregation outputs tables) >>= fun _ =>
      liftM (a.markers kept d) >>= fun markers =>
      a.rowSource kept d keys markers >>= fun source =>
      let w := a.outerWriter markers
      pure ⟨projection w d ++ [.token .from_] ++ source ++ groupClause w outputs keys
        ++ a.ordering w d ++ (a.engine.paging a.statement.skip? a.statement.take?).getD [],
        d.plan⟩ := by
  unfold assemble
  refine bind_congr fun _ => bind_congr fun markers => ?_
  unfold rowSource outerWriter
  -- Without markers the rows are the joined tables, else a derived table.
  by_cases hempty : markers.isEmpty
  · simp only [hempty, if_true]
    rfl
  · simp only [hempty, if_false, Bool.false_eq_true, bind_assoc]
    rfl

/-- **A join that is not kept changes nothing else.** Both statements are assembled or neither is,
with the same plan, and the same text up to the numbers of tables and parameters. -/
theorem Inserts.assemble (h : Inserts f k j a a')
    {outputs : List (Output Cell)} {tables : List MappedTable}
    (hn : a.IsNamed own (Draft.ofMapping a.statement tables outputs))
    (hkept : a'.statement.kept (Draft.ofMapping a'.statement (tables.map (MappedTable.embed f))
        (outputs.map (Output.map (Cell.embed f)))).neededTables =
      (a.statement.kept (Draft.ofMapping a.statement tables outputs).neededTables).map f.table) :
    Assembly.Matches (Assembled.Renumbers f own) (a.assemble outputs tables)
      (a'.assemble (outputs.map (Output.map (Cell.embed f)))
        (tables.map (MappedTable.embed f))) := by
  have hcollects := (Draft.ofMapping_collects a.statement tables outputs).1
  rw [assemble_eq, assemble_eq]
  dsimp only
  rw [hkept, Draft.ofMapping_embed h.extension]
  -- From here on it does not matter how the draft was made.
  generalize Draft.ofMapping a.statement tables outputs = d at *
  generalize a.statement.kept d.neededTables = kept at *
  rw [h.keysOf hn]
  have hkeys := hn.of_mem_keysOf outputs
  refine (Assembly.Matches.lift (checkAggregation_matches a a' f outputs tables)).bind
    fun _ _ _ => ?_
  refine (Assembly.Matches.lift (h.markers own kept d)).bind fun ms _ => ?_
  rintro ⟨rfl, hms⟩
  refine (h.rowSource hn kept hkeys hms).bind fun g g' hg => .pure ⟨?_, _, hcollects.rowIds, rfl⟩
  have hw := h.outerWriter hms
  dsimp only
  rw [h.engine, h.statement.skip, h.statement.take, groupClause_embed]
  have hprojection := projection_renumbers hw hn hcollects.rowIds
  have hfrom := hprojection.append (.refl (g := [.token .from_]) rfl)
  have hgroups := (hfrom.append hg).append (groupClause_renumbers hw outputs hkeys)
  exact (hgroups.append (h.ordering hw hn)).append (paging_renumbers a.engine _ _)

end Assembler

end NestedQuery
