import NestedQuery.Proofs.Select.Insertion

/-!
# Queries with a pruned join

A left join that nothing else needs is left out of the statement. Without it the query compiles to
the same statement up to the numbers of tables, and to the same plan
(`QuerySpec.render_without_pruned`). But its condition has been compiled by then, and its
parameters stay in the pool: they are bound at each execution like the others, although no
placeholder is left for them. So the executions of both queries go alike just as long as these
parameters can be bound.
-/

namespace NestedQuery

/-! ### Binding parameters -/

namespace Pool

variable {arguments : Document}

/-- The place of a parameter shows in its errors only. -/
theorem bindSlot_eq_ok {slot : Slot} {id : ParamId} {v : Value}
    (h : bindSlot arguments slot id = .ok v) (id' : ParamId) :
    bindSlot arguments slot id' = .ok v := by
  obtain ⟨w, hw, h⟩ := Result.bind_eq_ok_iff.mp h
  refine Result.bind_eq_ok_iff.mpr ⟨w, hw, ?_⟩
  split at h
  · exact h
  · cases h
  · cases h
  · exact h

/-- The values of slots, wherever they stand. -/
theorem bindSlots_eq_ok_iff {slots : List Slot} {bound : List Value} (n : Nat) :
    (slots.zipIdx n).mapM (fun x => bindSlot arguments x.1 x.2) = .ok bound ↔
      List.Forall₂ (fun slot v => bindSlot arguments slot 0 = .ok v) slots bound := by
  induction slots generalizing n bound with
  | nil => rw [List.zipIdx_nil, Result.mapM_eq_ok_iff]; simp only [List.forall₂_nil_left_iff]
  | cons slot slots ih =>
    rw [List.zipIdx_cons, List.mapM_cons, Result.bind_eq_ok_iff, List.forall₂_cons_left_iff]
    constructor
    · rintro ⟨v, hv, h⟩
      obtain ⟨vs, hvs, h⟩ := Result.bind_eq_ok_iff.mp h
      exact ⟨v, vs, bindSlot_eq_ok hv 0, (ih _).mp hvs, (Result.pure_eq_ok_iff.mp h).symm⟩
    · rintro ⟨v, vs, hv, hvs, rfl⟩
      exact ⟨v, bindSlot_eq_ok hv n, Result.bind_eq_ok_iff.mpr ⟨vs, (ih _).mpr hvs, rfl⟩⟩

theorem bind_eq_ok_iff {slots : List Slot} {bound : List Value} :
    bind ⟨slots⟩ arguments = .ok bound ↔
      List.Forall₂ (fun slot v => bindSlot arguments slot 0 = .ok v) slots bound :=
  bindSlots_eq_ok_iff 0

/-- Parameters side by side are bound one part after the other. -/
theorem bind_append_eq_ok_iff {l r : List Slot} {bound : List Value} :
    bind ⟨l ++ r⟩ arguments = .ok bound ↔ ∃ vs ws, bind ⟨l⟩ arguments = .ok vs ∧
      bind ⟨r⟩ arguments = .ok ws ∧ bound = vs ++ ws := by
  simp only [bind_eq_ok_iff]
  constructor
  · intro h
    have htake := List.forall₂_take l.length h
    have hdrop := List.forall₂_drop l.length h
    rw [List.take_left] at htake
    rw [List.drop_left] at hdrop
    exact ⟨_, _, htake, hdrop, (List.take_append_drop l.length bound).symm⟩
  · rintro ⟨vs, ws, hvs, hws, rfl⟩
    exact List.rel_append hvs hws

end Pool

theorem getElem?_param_insertion {α : Type} (k : Nat) (xs ys zs : List α) (i : ParamId) :
    (xs ++ (ys ++ zs))[(Embedding.insertion k xs.length ys.length).param i]? = (xs ++ zs)[i]? := by
  by_cases hi : i < xs.length
  · rw [show (Embedding.insertion k xs.length ys.length).param i = i from if_pos hi,
      List.getElem?_append_left hi, List.getElem?_append_left hi]
  · obtain ⟨e, rfl⟩ := Nat.exists_eq_add_of_le (Nat.le_of_not_lt hi)
    have hplace : (Embedding.insertion k xs.length ys.length).param (xs.length + e) =
        xs.length + (ys.length + e) :=
      (if_neg hi).trans ((Nat.add_right_comm _ _ _).trans (Nat.add_assoc _ _ _))
    rw [hplace]
    simp only [List.getElem?_append_right (Nat.le_add_right _ _), Nat.add_sub_cancel_left]

/-- If the parameters of the join can be bound, the others are bound alike in both queries. -/
theorem Pool.bind_matches {arguments : Document} {own : List Slot} (k : Nat)
    (before after : List Slot) {values : List Value}
    (hown : Pool.bind ⟨own⟩ arguments = .ok values) :
    (Pool.bind ⟨before ++ after⟩ arguments).Matches
      (fun bound bound' => ∀ id,
        bound'[(Embedding.insertion k before.length own.length).param id]? = bound[id]?)
      (Pool.bind ⟨before ++ (own ++ after)⟩ arguments) := by
  cases hbound : Pool.bind ⟨before ++ after⟩ arguments with
  | ok bound =>
    obtain ⟨vs, ws, hvs, hws, rfl⟩ := bind_append_eq_ok_iff.mp hbound
    have hbound' := bind_append_eq_ok_iff.mpr
      ⟨vs, _, hvs, bind_append_eq_ok_iff.mpr ⟨values, ws, hown, hws, rfl⟩, rfl⟩
    rw [hbound', (bind_eq_ok_iff.mp hvs).length_eq, (bind_eq_ok_iff.mp hown).length_eq]
    exact getElem?_param_insertion k vs values ws
  | error e =>
    cases hbound' : Pool.bind ⟨before ++ (own ++ after)⟩ arguments with
    | error e' => exact trivial
    | ok bound' =>
      obtain ⟨vs, _, hvs, hrest, -⟩ := bind_append_eq_ok_iff.mp hbound'
      obtain ⟨_, ws, -, hws, -⟩ := bind_append_eq_ok_iff.mp hrest
      have hok := bind_append_eq_ok_iff.mpr ⟨vs, ws, hvs, hws, rfl⟩
      cases hbound.symm.trans hok

/-- All parameters are bound at each execution. -/
theorem Pool.bind_eq_error {arguments : Document} {own : List Slot} (before after : List Slot)
    {e : Error} (hown : Pool.bind ⟨own⟩ arguments = .error e) :
    ∃ e, Pool.bind ⟨before ++ (own ++ after)⟩ arguments = .error e := by
  cases hbound : Pool.bind ⟨before ++ (own ++ after)⟩ arguments with
  | error e => exact ⟨e, rfl⟩
  | ok bound =>
    obtain ⟨_, _, -, hrest, -⟩ := bind_append_eq_ok_iff.mp hbound
    obtain ⟨values, _, hvalues, -⟩ := bind_append_eq_ok_iff.mp hrest
    cases hown.symm.trans hvalues

/-! ### The names of a query -/

namespace Stages

/-- The terms of the statement and its outputs. -/
def terms (st : Stages) : List Term :=
  st.outputs.map Output.value ++ st.statement.order.map Prod.fst ++ st.statement.filter?.toList
    ++ st.statement.joins.filterMap Join.on?

/-- The names that the statement does not make: those of tables and columns in the database, and
those of the outputs. -/
def names (st : Stages) (engine : Engine) : List String :=
  st.statement.sources.map (fun t => t.table.name) ++ engine.rowIds.names
    ++ (st.terms.flatMap Term.columns).map ColumnRef.column ++ st.draft.outputs.map Projected.name

variable {st : Stages}

theorem isNamed_of_mem_terms (engine : Engine) {t : Term} (ht : t ∈ st.terms)
    (hof : Term.IsOf st.statement.tableIds t) : Term.IsNamed (st.names engine) t := by
  intro a ha c hc
  have hcolumn : c ∈ Term.columns t := List.mem_filterMap.mpr ⟨a, ha, hc⟩
  refine ⟨hof.tableAlias_eq hcolumn, .inl ?_⟩
  refine List.mem_append_left _ (List.mem_append_right _ ?_)
  exact List.mem_map_of_mem (List.mem_flatMap.mpr ⟨t, ht, hcolumn⟩)

theorem isNamed (hst : st.IsChecked) (engine : Engine) :
    (st.assembler engine).IsNamed (st.names engine) st.draft where
  tables t ht := by
    refine .inl (List.mem_append_left _ (List.mem_append_left _ (List.mem_append_left _ ?_)))
    exact List.mem_map.mpr ⟨t, ht, rfl⟩
  rowIds name hname := .inl
    (List.mem_append_left _ (List.mem_append_left _ (List.mem_append_right _ hname)))
  conditions j hj on hon := by
    -- The condition of a join is one of the terms that the names are taken from.
    obtain ⟨i, hi⟩ := List.mem_iff_getElem?.mp hj
    obtain ⟨on', hon', hplain, -⟩ := hst.statement.joins (i + 1) j hi
    obtain rfl := Option.some.inj (hon'.symm.trans hon)
    refine isNamed_of_mem_terms engine (List.mem_append_right _ ?_) hplain.isOf
    exact List.mem_filterMap.mpr ⟨j, hj, hon⟩
  filter t ht := by
    refine isNamed_of_mem_terms engine ?_ (hst.statement.filter t ht).isOf
    exact List.mem_append_left _ (List.mem_append_right _ (Option.mem_toList.mpr ht))
  order key hkey := by
    refine isNamed_of_mem_terms engine ?_ (hst.statement.order key hkey).isOf
    exact List.mem_append_left _ (List.mem_append_left _ (List.mem_append_right _
      (List.mem_map_of_mem hkey)))
  outputs p hp := by
    obtain ⟨o, ho, hvalue⟩ := Draft.exists_of_mem_ofMapping hp
    rw [← hvalue]
    refine isNamed_of_mem_terms engine ?_ (hst.outputs o ho)
    exact List.mem_append_left _ (List.mem_append_left _ (List.mem_append_left _
      (List.mem_map_of_mem ho)))
  names p hp := .inl (List.mem_append_right _ (List.mem_map_of_mem hp))

/-- The assembler with one join more. -/
theorem Inserts.assembler {k : Nat} {before own : List Slot} {j : Join} {st' : Stages}
    (h : st.Inserts k before own j st') (engine : Engine) :
    (st.assembler engine).Inserts (.insertion k before.length own.length) k j
      (st'.assembler engine) where
  statement := h.statement
  extension := h.statement.extension
  table := rfl
  isExpanded id := by
    obtain ⟨after, hpool, hpool'⟩ := h.pool
    show (Option.map Slot.expanded st'.pool.slots[_]?).getD false =
      (Option.map Slot.expanded st.pool.slots[id]?).getD false
    rw [hpool, hpool', getElem?_param_insertion]
  engine := rfl

end Stages

/-! ### Pruning -/

namespace QuerySpec

variable {settings : Settings} {q : QuerySpec} {mapping : Expr}

/-- **A pruned join shows in its parameters only.** If a join is left out of the statement of an
accepted query and nothing else names its path, the query without it is accepted too. Both have the
same plan and the same statement, up to the numbers of the tables behind the join. The parameters
`own` of its condition stand among those of the query. As long as these can be bound, an execution
fails for both queries, or it succeeds for both with the same parameters and the same text, up to
the numbers of tables. If they cannot be bound, the execution fails with the join, whatever becomes
of it without. -/
theorem render_without_pruned {l r : List JoinSpec} {j : JoinSpec} {n n' : Nat} {query' : Query}
    (hjoins : q.joins = l ++ j :: r) (havoids : Avoids { q with joins := l ++ r } j.path mapping)
    (h : (q.compile settings mapping).run n = .ok (query', n'))
    (hpruned : tableAlias (l.length + 1) ∉ Fragment.sourceNames query'.sql) :
    ∃ st query s on before own after,
      stages settings.naming { q with joins := l ++ r } mapping = .ok st ∧
      (compile settings { q with joins := l ++ r } mapping).run n = .ok (query, n') ∧
      q.tables.addConditions settings.naming 1 l {} = .ok (s, ⟨before⟩) ∧
      conditionTerm settings.naming s j.condition ⟨before⟩ = .ok (on, ⟨before ++ own⟩) ∧
      query.pool.slots = before ++ after ∧ query'.pool.slots = before ++ (own ++ after) ∧
      let f := Embedding.insertion l.length before.length own.length
      let names := st.names settings.engine
      Fragment.Renumbers f names query.sql query'.sql ∧
      (∃ ts : List TableId, query.plan.rowIds = ts.map rowIdNameOf ∧
        query'.plan = query.plan.withRowIds (ts.map f.table)) ∧
      ∀ arguments,
        (∀ values, Pool.bind ⟨own⟩ arguments = .ok values →
          (query.render arguments).Matches (Rendered.Renumbers f names settings.engine.dialect)
            (query'.render arguments)) ∧
        ∀ e, Pool.bind ⟨own⟩ arguments = .error e → ∃ e, query'.render arguments = .error e := by
  obtain ⟨st', assembled', hst', hassembled', rfl⟩ := compile_run_eq_ok_iff.mp h
  obtain ⟨st, s, before, own, on, hst, hs, hon, hinserts⟩ :=
    stages_of_insert hjoins havoids hst'
  obtain ⟨after, hpool, hpool'⟩ := hinserts.pool
  have hassembler := hinserts.assembler settings.engine
  have hnamed := Stages.isNamed (Stages.isChecked_of_stages hst) settings.engine
  -- The join is not kept, so the other tables are.
  have hdraft : st'.draft = st.draft.embed (.insertion l.length before.length own.length) := by
    rw [Stages.draft, hinserts.outputs, hinserts.tables,
      Draft.ofMapping_embed hinserts.statement.extension]
    rfl
  have hkept : st'.statement.kept st'.draft.neededTables =
      (st.statement.kept st.draft.neededTables).map
        (Embedding.insertion l.length before.length own.length).table := by
    rw [Assembler.sourceNames_of_assemble hassembled',
      List.mem_map_of_injective fun _ _ => tableAlias_injective] at hpruned
    have hpruned : l.length + 1 ∉ st'.statement.kept st'.draft.neededTables := hpruned
    rw [hdraft, Draft.neededTables_embed] at hpruned ⊢
    exact hinserts.statement.kept_eq hpruned
  rw [Stages.draft, hinserts.outputs, hinserts.tables] at hkept
  rw [hinserts.outputs, hinserts.tables] at hassembled'
  obtain ⟨⟨assembled, _⟩, hassembled, ⟨hsql, hplan⟩, rfl⟩ :=
    (hassembler.assemble hnamed hkept n).exists_left hassembled'
  refine ⟨st, _, s, on, before, own, after, hst,
    compile_run_eq_ok_iff.mpr ⟨st, assembled, hst, hassembled, rfl⟩, hs, hon, hpool, hpool', hsql,
    hplan, fun arguments => ⟨fun values hvalues => ?_, fun e he => ?_⟩⟩
  · have hbind : (st.pool.bind arguments).Matches _ (st'.pool.bind arguments) :=
      (congrArg Pool.mk hpool) ▸ (congrArg Pool.mk hpool') ▸
        Pool.bind_matches l.length before after hvalues
    exact hbind.bind fun bound bound' hbound => hsql.render hbound settings.engine.dialect
  · obtain ⟨e', he'⟩ := Pool.bind_eq_error before after he
    refine ⟨e', ?_⟩
    show (st'.pool.bind arguments >>= _) = _
    rw [show st'.pool = ⟨before ++ (own ++ after)⟩ from congrArg Pool.mk hpool', he']
    rfl

end QuerySpec

/-- People and the classes of one person, whose number comes from the arguments. -/
def peopleWithArgument : QuerySpec :=
  { people with
    joins := [{ classJoin with
      condition := .binary .eq (shapeField "classes" "person_id") (.member .args "x") }] }

/-- The names of people do not need the classes. Without the argument of their condition, the query
fails all the same, although it has no placeholder and the query without classes succeeds. With the
argument both succeed. -/
theorem render_without_pruned_peopleWithArgument :
    ∃ query query' n', (peopleWithArgument.compile {} (shapeField "person" "name")).run 0 =
        .ok (query', n') ∧
      tableAlias 1 ∉ Fragment.sourceNames query'.sql ∧
      (({ peopleWithArgument with joins := [] } : QuerySpec).compile {}
        (shapeField "person" "name")).run 0 = .ok (query, n') ∧
      (∃ e, query'.render .null = .error e) ∧ (∃ r, query.render .null = .ok r ∧ r.params = []) ∧
      ∃ r, query'.render (.object [("x", .integer 1)]) = .ok r ∧ r.params = [] := by
  have hrun : ((peopleWithArgument.compile {} (shapeField "person" "name")).run 0).any
      (fun x => Fragment.sourceNames x.1.sql == ["t0"]) = true := by decide +kernel
  have hwithout : ((({ peopleWithArgument with joins := [] } : QuerySpec).compile {}
      (shapeField "person" "name")).run 0).any (fun x => [.null, .object [("x", .integer 1)]].all
        fun arguments => (x.1.render arguments).any fun r => r.params.isEmpty) = true := by
    decide +kernel
  -- The condition has one parameter, the argument.
  have hcondition : (conditionTerm .snakeCase peopleWithArgument.tables
      (.binary .eq (shapeField "classes" "person_id") (.member .args "x")) {}).any (fun x =>
        !(x.2.bind .null).any (fun _ => true) &&
          (x.2.bind (.object [("x", .integer 1)])).any fun _ => true) = true := by decide +kernel
  obtain ⟨⟨query', n'⟩, hquery', hnames⟩ := Result.any_eq_true_iff.mp hrun
  have hpruned : tableAlias 1 ∉ Fragment.sourceNames query'.sql := by
    rw [beq_iff_eq.mp hnames]
    decide
  have havoids : QuerySpec.Avoids { peopleWithArgument with joins := [] ++ [] } "classes"
      (shapeField "person" "name") :=
    ⟨by decide, List.forall_mem_nil _, List.forall_mem_nil _, List.forall_mem_nil _,
      List.forall_mem_nil _, by decide⟩
  obtain ⟨st, query, s, on, before, own, after, -, hquery, hs, hon, -, -, -, -, hrender⟩ :=
    QuerySpec.render_without_pruned (l := []) (r := []) rfl havoids hquery' hpruned
  obtain ⟨rfl, hbefore⟩ := Prod.mk.inj (Except.ok.inj hs)
  obtain rfl : before = [] := (Pool.mk.inj hbefore).symm
  obtain ⟨⟨_, pool⟩, hon', hbind⟩ := Result.any_eq_true_iff.mp hcondition
  obtain ⟨rfl, rfl⟩ := Prod.mk.inj (Except.ok.inj (hon'.symm.trans hon))
  obtain ⟨hnull, hone⟩ := Bool.and_eq_true_iff.mp hbind
  obtain ⟨⟨_, _⟩, hquery'', hall⟩ := Result.any_eq_true_iff.mp hwithout
  obtain ⟨rfl, -⟩ := Prod.mk.inj (Except.ok.inj (hquery.symm.trans hquery''))
  obtain ⟨hrendered, hall⟩ := Bool.and_eq_true_iff.mp hall
  obtain ⟨hrendered', -⟩ := Bool.and_eq_true_iff.mp hall
  obtain ⟨r, hr, hparams⟩ := Result.any_eq_true_iff.mp hrendered
  obtain ⟨r₁, hr₁, hparams₁⟩ := Result.any_eq_true_iff.mp hrendered'
  refine ⟨query, query', n', hquery', hpruned, hquery, ?_,
    ⟨r, hr, List.isEmpty_iff.mp hparams⟩, ?_⟩
  · cases hown : Pool.bind ⟨[] ++ own⟩ .null with
    | error e => exact (hrender .null).2 e hown
    | ok values =>
      rw [hown] at hnull
      cases hnull
  · obtain ⟨values, hvalues, -⟩ := Result.any_eq_true_iff.mp hone
    obtain ⟨r', hr', hsame, -⟩ := ((hrender _).1 values hvalues).exists_right hr₁
    exact ⟨r', hr', hsame.trans (List.isEmpty_iff.mp hparams₁)⟩

end NestedQuery
