import NestedQuery.Proofs.Mapping.Invariants
import NestedQuery.Proofs.Query.Stages
import NestedQuery.Proofs.Select.Layout

/-!
# No query breaks an invariant

Conditions, filters, ordering keys and the mapping are compiled from no bindings at all, and what
they yield is resolved with the bindings that they made, so resolution finds every chain. A
statement is assembled only when each of its joins has a condition. So a query whose variables all
stand inside the `select`s that bind them compiles, or fails in an ordinary way
(`QuerySpec.compile_keeps_invariants`).
-/

namespace NestedQuery

variable {α β : Type} {unbound : String → Prop}

/-! ### Assembling -/

/-- Whatever has been drawn before, the computation succeeds. -/
def Assembly.Succeeds (x : Assembly α) : Prop :=
  ∀ n, ∃ p, x.run n = .ok p

/-- If the computation fails, it does so in an ordinary way. -/
def Assembly.IsOrdinary (unbound : String → Prop) (x : Assembly α) : Prop :=
  ∀ n, Result.IsOrdinary unbound (x.run n)

namespace Assembly

theorem succeeds_pure (a : α) : Succeeds (pure a : Assembly α) :=
  fun n => ⟨(a, n), rfl⟩

theorem succeeds_draw (action : TempIds α) : Succeeds (Assembler.draw action) :=
  fun n => ⟨action.run n, rfl⟩

theorem Succeeds.bind {x : Assembly α} {f : α → Assembly β} (hx : Succeeds x)
    (hf : ∀ a, Succeeds (f a)) : Succeeds (x >>= f) := by
  intro n
  obtain ⟨⟨a, n₁⟩, ha⟩ := hx n
  obtain ⟨p, hp⟩ := hf a n₁
  exact ⟨p, run_bind_eq_ok_iff.mpr ⟨a, n₁, ha, hp⟩⟩

/-- What succeeds does not fail in an extraordinary way. -/
theorem Succeeds.isOrdinary {x : Assembly α} (hx : Succeeds x) : IsOrdinary unbound x := by
  intro n
  obtain ⟨p, hp⟩ := hx n
  exact hp ▸ Result.isOrdinary_ok p

theorem IsOrdinary.bind {x : Assembly α} {f : α → Assembly β} (hx : IsOrdinary unbound x)
    (hf : ∀ a, IsOrdinary unbound (f a)) : IsOrdinary unbound (x >>= f) := by
  intro n
  rw [run_bind]
  exact (hx n).bind fun a _ => hf a.1 a.2

/-- Before assembling goes on, what is checked has succeeded. -/
theorem isOrdinary_lift_bind {x : Result α} {f : α → Assembly β} (hx : Result.IsOrdinary unbound x)
    (hf : ∀ a, x = .ok a → IsOrdinary unbound (f a)) :
    IsOrdinary unbound ((liftM x : Assembly α) >>= f) := by
  intro n
  rw [run_bind, run_lift]
  refine Result.IsOrdinary.bind (hx.bind_pure fun a => (a, n)) fun a ha => ?_
  obtain ⟨b, hb, hpair⟩ := Result.bind_eq_ok_iff.mp ha
  rw [← Except.ok.inj hpair]
  exact hf b hb n

end Assembly

namespace Assembler

variable {a : Assembler}

theorem checkAggregation_isOrdinary (outputs : List (Output Cell)) (tables : List MappedTable) :
    Result.IsOrdinary unbound (a.checkAggregation outputs tables) := by
  unfold checkAggregation
  dsimp only
  split
  · exact Result.isOrdinary_error (Error.isOrdinary_unsupported _ _)
  · exact Result.isOrdinary_ok _

theorem markers_isOrdinary (kept : List TableId) (d : Draft) :
    Result.IsOrdinary unbound (a.markers kept d) := by
  unfold markers
  dsimp only
  split
  · exact Result.isOrdinary_error (Error.isOrdinary_unsupported _ _)
  · exact Result.isOrdinary_ok _

/-- A join with a condition can be written. -/
theorem joinClause_succeeds (id : TableId) {j : Join} (h : j.on?.isSome) :
    Assembly.Succeeds (a.joinClause id j) := by
  obtain ⟨condition, hon⟩ := Option.isSome_iff_exists.mp h
  rw [joinClause, hon]
  exact (Assembly.succeeds_draw _).bind fun _ => Assembly.succeeds_pure _

theorem joinClauses_succeeds (kept : List TableId) (id : TableId) {js : List Join}
    (h : ∀ j ∈ js, j.on?.isSome) : Assembly.Succeeds (a.joinClauses kept id js) := by
  induction js generalizing id with
  | nil => exact Assembly.succeeds_pure _
  | cons j js ih =>
    obtain ⟨hj, hjs⟩ := List.forall_mem_cons.mp h
    have hrest := fun clause : Fragment => (ih (id + 1) hjs).bind fun rest =>
      Assembly.succeeds_pure (clause ++ rest)
    rw [joinClauses]
    split
    · exact (joinClause_succeeds id hj).bind hrest
    · exact (Assembly.succeeds_pure _).bind hrest

theorem sources_succeeds (kept : List TableId) (h : ∀ j ∈ a.statement.joins, j.on?.isSome) :
    Assembly.Succeeds (a.sources kept) := by
  refine (Assembly.succeeds_draw _).bind fun _ => ?_
  refine (joinClauses_succeeds kept 1 h).bind fun _ => ?_
  split <;> exact Assembly.succeeds_pure _

theorem derivedRows_succeeds (kept : List TableId) (d : Draft) (keys : List ColumnRef)
    (markers : List Marker) (h : ∀ j ∈ a.statement.joins, j.on?.isSome) :
    Assembly.Succeeds (a.derivedRows kept d keys markers) :=
  (sources_succeeds kept h).bind fun _ => Assembly.succeeds_pure _

/-- After the checks, what is assembled depends on the joins' conditions only: with these, the
statement can be written. -/
theorem exists_assemble_eq (outputs : List (Output Cell)) (tables : List MappedTable)
    (h : ∀ j ∈ a.statement.joins, j.on?.isSome) :
    ∃ write : List Marker → Assembly Assembled, (∀ markers, Assembly.Succeeds (write markers)) ∧
      a.assemble outputs tables = (do
        a.checkAggregation outputs tables
        let d := Draft.ofMapping a.statement tables outputs
        write (← a.markers (a.statement.kept d.neededTables) d)) := by
  refine ⟨_, fun markers => ?_, rfl⟩
  dsimp only
  split
  · exact (sources_succeeds _ h).bind fun _ => Assembly.succeeds_pure _
  · exact (derivedRows_succeeds _ _ _ _ h).bind fun _ =>
      (Assembly.succeeds_pure _).bind fun _ => Assembly.succeeds_pure _

/-- **Assembling** breaks no invariant if every join has a condition. -/
theorem assemble_isOrdinary (outputs : List (Output Cell)) (tables : List MappedTable)
    (h : ∀ j ∈ a.statement.joins, j.on?.isSome) :
    Assembly.IsOrdinary unbound (a.assemble outputs tables) := by
  obtain ⟨write, hwrite, heq⟩ := exists_assemble_eq outputs tables h
  rw [heq]
  refine Assembly.isOrdinary_lift_bind (checkAggregation_isOrdinary outputs tables) fun _ _ => ?_
  exact Assembly.isOrdinary_lift_bind (markers_isOrdinary _ _) fun markers _ =>
    (hwrite markers).isOrdinary

end Assembler

/-! ### Conditions -/

theorem runWith_eq_error_iff {action : Compile α} {p : Pool} {e : Error} :
    action.runWith p = .error e ↔ Fails action { pool := p } e := by
  unfold Compile.runWith Fails
  rcases hrun : action.run { pool := p } with ⟨e' | a, c⟩
  · rw [show action.run.run { pool := p } = (.error e', c) from hrun]
    exact ⟨fun h => congrArg _ (Except.error.inj h), fun h => congrArg _ (Except.error.inj h)⟩
  · rw [show action.run.run { pool := p } = (.ok a, c) from hrun]
    exact ⟨nofun, nofun⟩

theorem conditionTerm_isOrdinary {naming : Naming} {s : Statement} {e : Expr} {pool : Pool}
    (hvars : ∀ name ∈ e.freeVars, unbound name) :
    Result.IsOrdinary unbound (conditionTerm naming s e pool) := by
  have hensures := compileCondition_ensures s (c := { pool := pool }) Grounded.nil hvars
  refine Result.IsOrdinary.bind (fun err h => hensures.fails (runWith_eq_error_iff.mp h)) ?_
  rintro ⟨⟨v, bindings⟩, pool'⟩ hv
  obtain ⟨hc, hv⟩ := hensures.yields (runWith_eq_ok_iff.mp hv)
  let r : Resolver := ⟨s, naming, bindings⟩
  exact (Resolver.resolveTree_isOrdinary (r := r) hc.grounded hv.isRooted).bind_pure _

namespace Statement

variable {naming : Naming} {s : Statement} {pool : Pool}

theorem checkJoin_isOrdinary (s : Statement) (id : TableId) (condition : Term) :
    Result.IsOrdinary unbound (s.checkJoin id condition) := by
  unfold checkJoin
  split
  · exact Result.isOrdinary_error (Error.isOrdinary_unsupported _ _)
  · exact Result.isOrdinary_ok _

theorem addConditions_isOrdinary (id : TableId) {js : List JoinSpec}
    (hvars : ∀ j ∈ js, ∀ name ∈ j.condition.freeVars, unbound name) :
    Result.IsOrdinary unbound (addConditions naming id js s pool) := by
  induction js generalizing id s pool with
  | nil => exact Result.isOrdinary_ok _
  | cons j js ih =>
    obtain ⟨hj, hjs⟩ := List.forall_mem_cons.mp hvars
    refine (conditionTerm_isOrdinary hj).bind fun x _ => ?_
    exact (checkJoin_isOrdinary _ _ _).bind fun _ _ => ih (id + 1) hjs

theorem addFilter_isOrdinary {e? : Option Expr}
    (hvars : ∀ e ∈ e?, ∀ name ∈ e.freeVars, unbound name) :
    Result.IsOrdinary unbound (addFilter naming e? s pool) := by
  cases e? with
  | none => exact Result.isOrdinary_ok _
  | some e => exact (conditionTerm_isOrdinary (hvars e rfl)).bind_pure _

theorem addOrder_isOrdinary {keys : List (Expr × Direction)}
    (hvars : ∀ key ∈ keys, ∀ name ∈ key.1.freeVars, unbound name) :
    Result.IsOrdinary unbound (addOrder naming keys s pool) := by
  induction keys generalizing s pool with
  | nil => exact Result.isOrdinary_ok _
  | cons key keys ih =>
    obtain ⟨hkey, hkeys⟩ := List.forall_mem_cons.mp hvars
    exact (conditionTerm_isOrdinary hkey).bind fun x _ => ih hkeys

end Statement

/-! ### Queries -/

namespace QuerySpec

variable {q : QuerySpec} {mapping : Expr} {naming : Naming}

/-- The join conditions, the filters and the ordering keys. -/
def conditions (q : QuerySpec) : List Expr :=
  q.joins.map JoinSpec.condition ++ (q.filters ++ q.order.map Prod.fst)

/-- Every variable of a condition stands inside the body of a `select` that binds its name. -/
def IsScoped (q : QuerySpec) : Prop :=
  ∀ e ∈ q.conditions, e.IsScoped

instance (q : QuerySpec) : Decidable q.IsScoped :=
  inferInstanceAs (Decidable (∀ e ∈ q.conditions, e.IsScoped))

/-- A variable of all filters in one is a variable of one of them. -/
theorem exists_of_mem_freeVars_filter? {e : Expr} (he : q.filter? = some e) {name : String}
    (hname : name ∈ e.freeVars) : ∃ e' ∈ q.filters, name ∈ e'.freeVars := by
  -- The filters are folded into one from the left.
  have hfold : ∀ (es : List Expr) (e : Expr), name ∈ (es.foldl (.binary .and) e).freeVars →
      ∃ e' ∈ e :: es, name ∈ e'.freeVars := by
    intro es
    induction es with
    | nil => exact fun e h => ⟨e, List.mem_singleton_self e, h⟩
    | cons e' es ih =>
      intro e h
      obtain ⟨e₁, he₁, hname⟩ := ih _ h
      rcases List.mem_cons.mp he₁ with rfl | he₁
      · rcases List.mem_append.mp hname with hname | hname
        · exact ⟨e, by simp, hname⟩
        · exact ⟨e', by simp, hname⟩
      · exact ⟨e₁, List.mem_cons_of_mem _ (List.mem_cons_of_mem _ he₁), hname⟩
  unfold filter? at he
  split at he
  · cases he
  · rename_i e₀ es hfilters
    rw [hfilters]
    obtain rfl := Option.some.inj he
    exact hfold es e₀ hname

theorem statement_isOrdinary (hq : ∀ e ∈ q.conditions, ∀ name ∈ e.freeVars, unbound name)
    (pool : Pool) : Result.IsOrdinary unbound (q.statement naming pool) := by
  obtain ⟨hjoins, hq⟩ := List.forall_mem_append.mp hq
  obtain ⟨hfilters, horder⟩ := List.forall_mem_append.mp hq
  refine (Statement.addConditions_isOrdinary 1 (List.forall_mem_map.mp hjoins)).bind fun x _ => ?_
  refine Result.IsOrdinary.bind (Statement.addFilter_isOrdinary fun e he name hname => ?_)
    fun y _ => Statement.addOrder_isOrdinary (List.forall_mem_map.mp horder)
  obtain ⟨e', he', hname⟩ := exists_of_mem_freeVars_filter? he hname
  exact hfilters e' he' name hname

theorem resolveOutputs_isOrdinary {r : Resolver} {outputs : List (Output Symbol)}
    (h : Grounded r.bindings) (ho : ∀ o ∈ outputs, o.value.IsRooted r.bindings) :
    Result.IsOrdinary unbound (resolveOutputs r outputs) := by
  intro e he
  obtain ⟨o, hmem, hresolve⟩ := Result.mapM_eq_error he
  exact (Resolver.resolveTree_isOrdinary h (ho o hmem)).bind_pure _ e hresolve

/-- Every join of an accepted statement has a condition. -/
theorem isSome_on?_of_statement {s : Statement} {pool pool' : Pool}
    (h : q.statement naming pool = .ok (s, pool')) : ∀ j ∈ s.joins, j.on?.isSome := by
  intro j hj
  obtain ⟨i, hi⟩ := List.mem_iff_getElem?.mp hj
  obtain ⟨on, hon, -⟩ := (statement_isChecked h).joins (i + 1) j hi
  exact Option.isSome_iff_exists.mpr ⟨on, hon⟩

/-- **Compiling a query** breaks no invariant but that of a free variable. -/
theorem compile_isOrdinary (settings : Settings)
    (hq : ∀ e ∈ q.conditions, ∀ name ∈ e.freeVars, unbound name)
    (hm : ∀ name ∈ mapping.freeVars, unbound name) :
    Assembly.IsOrdinary unbound (q.compile settings mapping) := by
  refine Assembly.isOrdinary_lift_bind (statement_isOrdinary hq {}) fun ⟨s, pool⟩ hs => ?_
  have hensures := compileMapping_ensures s (c := { pool := pool }) Grounded.nil hm
  refine Assembly.isOrdinary_lift_bind
    (fun err h => hensures.fails (runWith_eq_error_iff.mp h)) fun ⟨⟨r, bindings⟩, pool'⟩ hr => ?_
  obtain ⟨hc, hr⟩ := hensures.yields (runWith_eq_ok_iff.mp hr)
  refine Assembly.isOrdinary_lift_bind
    (resolveOutputs_isOrdinary hc.grounded fun o ho => (hr o ho).isRooted) fun outputs _ => ?_
  refine Assembly.IsOrdinary.bind ?_ fun _ => (Assembly.succeeds_pure _).isOrdinary
  exact Assembler.assemble_isOrdinary _ _ (isSome_on?_of_statement hs)

/-- **A query whose variables are bound breaks no invariant.** If it fails, a broken invariant is
not the root cause. Whatever a condition or the mapping is compiled against, each binding starts at
the row or at an earlier binding, and each chain of the compiled values starts at the row or at a
binding that there is. When all stages succeed, tables are read that there are only, every join has
a condition, and every output lies under the level that its column is put at. -/
theorem compile_keeps_invariants (settings : Settings) (hq : q.IsScoped) (hm : mapping.IsScoped)
    (n : Nat) :
    (∀ e, (q.compile settings mapping).run n = .error e → ∀ i, e.rootCause ≠ .invariant i) ∧
      (∀ e ∈ q.conditions, ∀ s pool v c, Yields (compileCondition s e) { pool := pool } v c →
        Grounded c.bindings ∧ v.IsRooted c.bindings) ∧
      (∀ s pool r c, Yields (compileMapping s mapping) { pool := pool } r c →
        Grounded c.bindings ∧ ∀ o ∈ r.outputs, o.value.IsRooted c.bindings) ∧
      ∀ st, q.stages settings.naming mapping = .ok st →
        st.IsChecked ∧ (∀ j ∈ st.statement.joins, j.on?.isSome) ∧
          List.Forall₂ (Draft.Lands st.draft) st.outputs st.draft.plan.columns := by
  have hunbound {e : Expr} (he : e.IsScoped) : ∀ name ∈ e.freeVars, False := fun name hname =>
    absurd (he ▸ hname) List.not_mem_nil
  refine ⟨fun e he i hi => ?_, fun e he s pool v c hv => ?_, fun s pool r c hr => ?_,
    fun st hst => ⟨Stages.isChecked_of_stages hst, ?_, ?_⟩⟩
  · have hordinary := compile_isOrdinary settings (fun e he => hunbound (hq e he)) (hunbound hm)
    obtain ⟨-, h, -⟩ := hordinary n e he i hi
    exact h
  · have hensures := compileCondition_ensures s (c := { pool := pool }) .nil (hunbound (hq e he))
    obtain ⟨hc, hv⟩ := hensures.yields hv
    exact ⟨hc.grounded, hv.isRooted⟩
  · have hensures := compileMapping_ensures s (c := { pool := pool }) .nil (hunbound hm)
    obtain ⟨hc, hr⟩ := hensures.yields hr
    exact ⟨hc.grounded, fun o ho => (hr o ho).isRooted⟩
  · obtain ⟨p, bindings, hs, -, -⟩ := stages_eq_ok_iff.mp hst
    exact isSome_on?_of_statement hs
  · exact (Draft.ofMapping_isPlaced st.statement st.compiled.tables st.outputs).columns

/-- The titles of the people's classes use a variable inside the `select` that binds it. -/
theorem compile_keeps_invariants_namesWithTitles :
    people.IsScoped ∧ namesWithTitles.IsScoped ∧
      (∀ e, (people.compile {} namesWithTitles).run 0 = .error e →
        ∀ i, e.rootCause ≠ .invariant i) ∧
      ∃ st, people.stages .snakeCase namesWithTitles = .ok st ∧
        List.Forall₂ (Draft.Lands st.draft) st.outputs st.draft.plan.columns := by
  have hstages : (people.stages .snakeCase namesWithTitles).any (fun _ => true) = true := by
    decide +kernel
  obtain ⟨st, hst, -⟩ := Result.any_eq_true_iff.mp hstages
  have hq : people.IsScoped := by decide
  have hm : namesWithTitles.IsScoped := by decide
  obtain ⟨herror, -, -, hlands⟩ := compile_keeps_invariants {} hq hm 0
  exact ⟨hq, hm, herror, st, hst, (hlands st hst).2.2⟩

/-- Outside the `select` the variable is free. -/
example : ¬ (Expr.member (.var "c") "title").IsScoped ∧
    ∃ e, (people.compile {} (.member (.var "c") "title")).run 0 = .error e ∧
      e.rootCause = .invariant (.unboundVariable "c") :=
  ⟨by decide, _, rfl, rfl⟩

end QuerySpec

end NestedQuery
