import NestedQuery.Proofs.Mapping.Commas
import NestedQuery.Proofs.Mapping.Folding
import NestedQuery.Query

/-!
# The stages of compiling a query

A query that compiles goes through its statement, the compiled mapping and the resolved outputs
before it is assembled; `QuerySpec.stages` are these, and `compile_run_eq_ok_iff` says that nothing
else decides the result.

What is accepted on the way is in order (`Stages.isChecked_of_stages`): every term reads tables of
the statement only, conditions and ordering keys have no aggregates, and a join condition reads no
table that is joined later.
-/

namespace NestedQuery

/-! ### Assembling as a relation -/

namespace Assembly

variable {α β : Type}

theorem run_bind_eq_ok_iff {x : Assembly α} {f : α → Assembly β} {n n' : Nat} {b : β} :
    (x >>= f).run n = .ok (b, n') ↔
      ∃ a n₁, x.run n = .ok (a, n₁) ∧ (f a).run n₁ = .ok (b, n') := by
  rw [run_bind, Result.bind_eq_ok_iff]
  constructor
  · rintro ⟨⟨a, n₁⟩, hx, hf⟩
    exact ⟨a, n₁, hx, hf⟩
  · rintro ⟨a, n₁, hx, hf⟩
    exact ⟨(a, n₁), hx, hf⟩

theorem run_pure_eq_ok_iff {a b : α} {n n' : Nat} :
    (pure a : Assembly α).run n = .ok (b, n') ↔ a = b ∧ n = n' := by
  rw [run_pure, Except.ok.injEq, Prod.mk.injEq]

theorem run_lift_eq_ok_iff {x : Result α} {a : α} {n n' : Nat} :
    (liftM x : Assembly α).run n = .ok (a, n') ↔ x = .ok a ∧ n = n' := by
  rw [run_lift, Result.bind_eq_ok_iff]
  constructor
  · rintro ⟨b, rfl, h⟩
    obtain ⟨rfl, rfl⟩ := Prod.mk.inj (Except.ok.inj h)
    exact ⟨rfl, rfl⟩
  · rintro ⟨rfl, rfl⟩
    exact ⟨a, rfl, rfl⟩

theorem run_throw_ne_ok (e : Error) {a : α} {n n' : Nat} :
    (throw e : Assembly α).run n ≠ .ok (a, n') :=
  fun h => absurd (show Except.error e = Except.ok (a, n') from h) (by simp)

theorem run_map_eq_ok_iff {x : Assembly α} {f : α → β} {b : β} {n n' : Nat} :
    (f <$> x).run n = .ok (b, n') ↔ ∃ a, x.run n = .ok (a, n') ∧ f a = b := by
  rw [map_eq_pure_bind, run_bind_eq_ok_iff]
  constructor
  · rintro ⟨a, n₁, hx, hf⟩
    obtain ⟨hb, rfl⟩ := run_pure_eq_ok_iff.mp hf
    exact ⟨a, hx, hb⟩
  · rintro ⟨a, hx, hb⟩
    exact ⟨a, n', hx, run_pure_eq_ok_iff.mpr ⟨hb, rfl⟩⟩

/-- Computations that are the same after `f` yield the same after `f`. -/
theorem exists_run_eq_ok {x x' : Assembly α} {f : α → β}
    (h : f <$> x' = f <$> x) {a : α} {n n' : Nat} (hx : x.run n = .ok (a, n')) :
    ∃ a', x'.run n = .ok (a', n') ∧ f a' = f a := by
  have hmap : (f <$> x').run n = .ok (f a, n') := h ▸ run_map_eq_ok_iff.mpr ⟨a, hx, rfl⟩
  exact run_map_eq_ok_iff.mp hmap

end Assembly

/-! ### The stages -/

/-- What a query and its mapping are compiled to before they are assembled. -/
structure Stages where
  /-- The tables and clauses. -/
  statement : Statement
  /-- The mapping, compiled. -/
  compiled : Compiled
  /-- The outputs, resolved. -/
  outputs : List (Output Cell)
  /-- The parameters. -/
  pool : Pool

/-- The stages of a query with a mapping, up to the assembling. -/
def QuerySpec.stages (naming : Naming) (q : QuerySpec) (mapping : Expr) : Result Stages := do
  let (s, pool) ← q.statement naming {}
  let ((compiled, bindings), pool) ← (compileMapping s mapping).runWith pool
  let outputs ← resolveOutputs ⟨s, naming, bindings⟩ compiled.outputs
  return ⟨s, compiled, outputs, pool⟩

/-- The assembler of the stages. -/
def Stages.assembler (st : Stages) (engine : Engine) : Assembler :=
  ⟨st.statement, st.pool, engine⟩

/-- The draft of the plan. -/
def Stages.draft (st : Stages) : Draft :=
  Draft.ofMapping st.statement st.compiled.tables st.outputs

/-- The tables that the statement is left with. -/
def Stages.kept (st : Stages) : List TableId :=
  st.statement.kept st.draft.neededTables

/-- What the joined rows are grouped by if the statement is grouped, on any engine. -/
def Stages.groupKeys (st : Stages) : List ColumnRef :=
  (st.assembler .ansi).groupKeys st.draft

theorem QuerySpec.compile_run_eq_ok_iff {settings : Settings} {q : QuerySpec} {mapping : Expr}
    {query : Query} {n n' : Nat} :
    (q.compile settings mapping).run n = .ok (query, n') ↔
      ∃ st assembled, q.stages settings.naming mapping = .ok st ∧
        ((st.assembler settings.engine).assemble st.outputs st.compiled.tables).run n =
          .ok (assembled, n') ∧
        query = ⟨assembled.sql, assembled.plan, st.pool, settings.engine⟩ := by
  unfold QuerySpec.compile QuerySpec.stages
  constructor
  · intro h
    obtain ⟨⟨s, pool⟩, n₁, hlift, h⟩ := Assembly.run_bind_eq_ok_iff.mp h
    obtain ⟨hs, rfl⟩ := Assembly.run_lift_eq_ok_iff.mp hlift
    obtain ⟨⟨⟨compiled, bindings⟩, pool'⟩, n₂, hlift', h⟩ := Assembly.run_bind_eq_ok_iff.mp h
    obtain ⟨hc, rfl⟩ := Assembly.run_lift_eq_ok_iff.mp hlift'
    obtain ⟨outputs, n₃, hlift'', h⟩ := Assembly.run_bind_eq_ok_iff.mp h
    obtain ⟨ho, rfl⟩ := Assembly.run_lift_eq_ok_iff.mp hlift''
    obtain ⟨assembled, n₄, hassembled, h⟩ := Assembly.run_bind_eq_ok_iff.mp h
    obtain ⟨rfl, rfl⟩ := Assembly.run_pure_eq_ok_iff.mp h
    exact ⟨⟨s, compiled, outputs, pool'⟩, assembled,
      Result.bind_eq_ok_iff.mpr ⟨_, hs, Result.bind_eq_ok_iff.mpr ⟨_, hc,
        Result.bind_eq_ok_iff.mpr ⟨_, ho, rfl⟩⟩⟩, hassembled, rfl⟩
  · rintro ⟨st, assembled, h, hassembled, rfl⟩
    obtain ⟨⟨s, pool⟩, hs, h⟩ := Result.bind_eq_ok_iff.mp h
    obtain ⟨⟨⟨compiled, bindings⟩, pool'⟩, hc, h⟩ := Result.bind_eq_ok_iff.mp h
    obtain ⟨outputs, ho, h⟩ := Result.bind_eq_ok_iff.mp h
    obtain rfl := Result.pure_eq_ok_iff.mp h
    refine Assembly.run_bind_eq_ok_iff.mpr ⟨_, _, Assembly.run_lift_eq_ok_iff.mpr ⟨hs, rfl⟩, ?_⟩
    refine Assembly.run_bind_eq_ok_iff.mpr ⟨_, _, Assembly.run_lift_eq_ok_iff.mpr ⟨hc, rfl⟩, ?_⟩
    refine Assembly.run_bind_eq_ok_iff.mpr ⟨_, _, Assembly.run_lift_eq_ok_iff.mpr ⟨ho, rfl⟩, ?_⟩
    exact Assembly.run_bind_eq_ok_iff.mpr ⟨_, _, hassembled,
      Assembly.run_pure_eq_ok_iff.mpr ⟨rfl, rfl⟩⟩

/-! ### Compiling with the parameters so far -/

theorem runWith_eq_ok_iff {α : Type} {action : Compile α} {p p₁ : Pool} {a : α}
    {bindings : List Binding} :
    action.runWith p = .ok ((a, bindings), p₁) ↔
      Yields action { pool := p } a { pool := p₁, bindings := bindings } := by
  unfold Compile.runWith Yields
  constructor
  · intro h
    split at h
    · rename_i a' c hrun
      obtain ⟨ha, rfl⟩ := Prod.mk.inj (Except.ok.inj h)
      obtain ⟨rfl, rfl⟩ := Prod.mk.inj ha
      exact hrun
    · cases h
  · intro h
    have hrun : action.run { pool := p } = (.ok a, ⟨p₁, bindings⟩) := h
    rw [hrun]

theorem conditionTerm_eq_ok_iff {naming : Naming} {s : Statement} {e : Expr} {p p₁ : Pool}
    {t : Term} :
    conditionTerm naming s e p = .ok (t, p₁) ↔ ∃ v bindings,
      Yields (compileCondition s e) { pool := p } v { pool := p₁, bindings := bindings } ∧
        Resolver.resolveTree ⟨s, naming, bindings⟩ v = .ok t := by
  unfold conditionTerm
  constructor
  · intro h
    obtain ⟨⟨⟨v, bindings⟩, pool⟩, hv, h⟩ := Result.bind_eq_ok_iff.mp h
    obtain ⟨t', ht, h⟩ := Result.bind_eq_ok_iff.mp h
    obtain ⟨rfl, rfl⟩ := Prod.mk.inj (Result.pure_eq_ok_iff.mp h)
    exact ⟨v, bindings, runWith_eq_ok_iff.mp hv, ht⟩
  · rintro ⟨v, bindings, hv, ht⟩
    exact Result.bind_eq_ok_iff.mpr ⟨_, runWith_eq_ok_iff.mpr hv,
      Result.bind_eq_ok_iff.mpr ⟨t, ht, rfl⟩⟩

theorem QuerySpec.stages_eq_ok_iff {naming : Naming} {q : QuerySpec} {mapping : Expr}
    {st : Stages} :
    q.stages naming mapping = .ok st ↔ ∃ p bindings,
      q.statement naming {} = .ok (st.statement, p) ∧
        Yields (compileMapping st.statement mapping) { pool := p } st.compiled
          { pool := st.pool, bindings := bindings } ∧
        resolveOutputs ⟨st.statement, naming, bindings⟩ st.compiled.outputs = .ok st.outputs := by
  unfold QuerySpec.stages
  constructor
  · intro h
    obtain ⟨⟨s, p⟩, hs, h⟩ := Result.bind_eq_ok_iff.mp h
    obtain ⟨⟨⟨compiled, bindings⟩, pool⟩, hc, h⟩ := Result.bind_eq_ok_iff.mp h
    obtain ⟨outputs, ho, h⟩ := Result.bind_eq_ok_iff.mp h
    obtain rfl := Result.pure_eq_ok_iff.mp h
    exact ⟨p, bindings, hs, runWith_eq_ok_iff.mp hc, ho⟩
  · rintro ⟨p, bindings, hs, hc, ho⟩
    exact Result.bind_eq_ok_iff.mpr ⟨_, hs, Result.bind_eq_ok_iff.mpr ⟨_,
      runWith_eq_ok_iff.mpr hc, Result.bind_eq_ok_iff.mpr ⟨_, ho, rfl⟩⟩⟩

/-- A resolved output has the resolved value of a compiled one. -/
theorem QuerySpec.exists_of_mem_resolveOutputs {r : Resolver} {outputs : List (Output Symbol)}
    {resolved : List (Output Cell)} (h : resolveOutputs r outputs = .ok resolved)
    {o : Output Cell} (ho : o ∈ resolved) :
    ∃ o' ∈ outputs, r.resolveTree o'.value = .ok o.value := by
  obtain ⟨o', ho', hresolve⟩ := exists_mem_of_forall₂ (Result.mapM_eq_ok_iff.mp h) ho
  obtain ⟨t, ht, hresolve⟩ := Result.bind_eq_ok_iff.mp hresolve
  obtain rfl := Result.pure_eq_ok_iff.mp hresolve
  exact ⟨o', ho', ht⟩

/-! ### Conditions -/

/-- The term reads tables among `ids`, outside aggregates. -/
structure Term.IsPlain (ids : List TableId) (t : Term) : Prop where
  isOf : Term.IsOf ids t
  not_beneath : ∀ x ∈ t.visit, x.2 = false

/-- Outside aggregates, what a term needs are the tables that it reads. -/
theorem Term.IsPlain.mem_neededTables_iff {ids : List TableId} {t : Term} (h : Term.IsPlain ids t)
    {u : TableId} : u ∈ Term.neededTables t ↔ ∃ c ∈ Term.columns t, c.table = u := by
  refine ⟨fun hu => ?_, fun ⟨c, hc, htable⟩ => htable ▸ Term.table_mem_neededTables hc⟩
  obtain ⟨leaf, hleaf, hu⟩ := List.mem_flatMap.mp hu
  obtain ⟨x, hx, rfl⟩ := List.mem_map.mp hleaf
  have hof := h.isOf x hx
  rw [h.not_beneath x hx] at hof
  obtain ⟨c, hc, htable⟩ := hof.mem_tables_iff.mp hu
  exact ⟨c, List.mem_filterMap.mpr ⟨x.1, hleaf, hc⟩, htable⟩

/-- The join has a condition that reads tables among `ids`, and none after its own. -/
def Join.IsConditioned (ids : List TableId) (id : TableId) (j : Join) : Prop :=
  ∃ on, j.on? = some on ∧ Term.IsPlain ids on ∧ ∀ c ∈ Term.columns on, c.table ≤ id

/-- All conditions and ordering keys are in order. -/
structure Statement.IsChecked (s : Statement) : Prop where
  /-- Every join has a condition that reads no later table. -/
  joins : ∀ id j, s.join? id = some j → j.IsConditioned s.tableIds id
  /-- The filter is read row by row. -/
  filter : ∀ t, s.filter? = some t → Term.IsPlain s.tableIds t
  /-- The ordering keys are read row by row. -/
  order : ∀ key ∈ s.order, Term.IsPlain s.tableIds key.1

theorem conditionTerm_isPlain {naming : Naming} {s : Statement} {e : Expr} {pool pool' : Pool}
    {t : Term} (h : conditionTerm naming s e pool = .ok (t, pool')) :
    Term.IsPlain s.tableIds t := by
  obtain ⟨v, bindings, hv, ht⟩ := conditionTerm_eq_ok_iff.mp h
  obtain ⟨hfold, hnone⟩ := compileCondition_keeps (closedValues_foldedBeneath s) hv
  refine ⟨isOf_of_resolveTree hfold ht, fun y hy => ?_⟩
  obtain ⟨x, hx, -, hbeneath⟩ :=
    exists_mem_of_forall₂ (Accumulator.visitFrom_of_traverse false v ht) hy
  -- Resolving moves no leaf, so what lies beneath an aggregate did so before.
  rw [← hbeneath]
  exact Accumulator.not_beneath_of_aggregation_eq_none v hnone x hx

namespace Statement

theorem checkJoin_eq_ok_iff {s : Statement} {id : TableId} {condition : Term} :
    s.checkJoin id condition = .ok () ↔ ∀ c ∈ Term.columns condition, c.table ≤ id := by
  unfold checkJoin
  split
  · rename_i c hfind
    constructor
    · exact fun h => absurd h (by simp)
    · intro h
      have hlt := List.find?_some hfind
      rw [decide_eq_true_eq] at hlt
      exact absurd (h c (List.mem_of_find?_eq_some hfind)) (Nat.not_le_of_lt hlt)
  · rename_i hnone
    refine ⟨fun _ c hc => ?_, fun _ => rfl⟩
    have hnot := List.find?_eq_none.mp hnone c hc
    rw [decide_eq_true_eq] at hnot
    exact Nat.le_of_not_lt hnot

/-- What setting conditions leaves alone. -/
structure SameTables (s s' : Statement) : Prop where
  primary : s'.primary = s.primary
  sources : s'.joins.map Join.toSource = s.joins.map Join.toSource
  filter : s'.filter? = s.filter?
  order : s'.order = s.order

theorem SameTables.tableIds {s s' : Statement} (h : SameTables s s') :
    s'.tableIds = s.tableIds := by
  rw [Statement.tableIds, Statement.tableIds, Statement.sources, Statement.sources, h.primary,
    h.sources]

theorem SameTables.trans {s₁ s₂ s₃ : Statement} (h : SameTables s₁ s₂) (h' : SameTables s₂ s₃) :
    SameTables s₁ s₃ :=
  ⟨h'.primary.trans h.primary, h'.sources.trans h.sources, h'.filter.trans h.filter,
    h'.order.trans h.order⟩

theorem setCondition_joins_self (s : Statement) (k : Nat) (condition : Term) :
    (s.setCondition (k + 1) condition).joins[k]? =
      (s.joins[k]?).map fun j => { j with on? := some condition } :=
  List.getElem?_modify_eq _ _ _

theorem setCondition_joins_of_ne (s : Statement) {k i : Nat} (hi : k ≠ i) (condition : Term) :
    (s.setCondition (k + 1) condition).joins[i]? = s.joins[i]? :=
  List.getElem?_modify_ne _ _ hi

theorem sameTables_setCondition (s : Statement) (id : TableId) (condition : Term) :
    SameTables s (s.setCondition id condition) := by
  refine ⟨rfl, ?_, rfl, rfl⟩
  refine List.ext_getElem? fun i => ?_
  rw [setCondition, List.getElem?_map, List.getElem?_map, List.getElem?_modify]
  cases s.joins[i]? with
  | none => rfl
  | some j =>
    show some _ = some _
    split <;> rfl

/-- The condition of the first join is checked and set before those of the others are compiled. -/
theorem addConditions_cons_eq_ok_iff {naming : Naming} {id : TableId} {j : JoinSpec}
    {js : List JoinSpec} {s : Statement} {p : Pool} {r : Statement × Pool} :
    addConditions naming id (j :: js) s p = .ok r ↔
      ∃ t p₁, conditionTerm naming s j.condition p = .ok (t, p₁) ∧ s.checkJoin id t = .ok () ∧
        addConditions naming (id + 1) js (s.setCondition id t) p₁ = .ok r := by
  constructor
  · intro h
    obtain ⟨⟨t, p₁⟩, ht, h⟩ := Result.bind_eq_ok_iff.mp h
    obtain ⟨_, hcheck, h⟩ := Result.bind_eq_ok_iff.mp h
    exact ⟨t, p₁, ht, hcheck, h⟩
  · rintro ⟨t, p₁, ht, hcheck, h⟩
    exact Result.bind_eq_ok_iff.mpr ⟨_, ht, Result.bind_eq_ok_iff.mpr ⟨_, hcheck, h⟩⟩

theorem addFilter_some_eq_ok_iff {naming : Naming} {e : Expr} {s s' : Statement} {p p' : Pool} :
    addFilter naming (some e) s p = .ok (s', p') ↔
      ∃ t, conditionTerm naming s e p = .ok (t, p') ∧ s' = { s with filter? := some t } := by
  constructor
  · intro h
    obtain ⟨⟨t, p₁⟩, ht, h⟩ := Result.bind_eq_ok_iff.mp h
    obtain ⟨rfl, rfl⟩ := Prod.mk.inj (Result.pure_eq_ok_iff.mp h)
    exact ⟨t, ht, rfl⟩
  · rintro ⟨t, ht, rfl⟩
    exact Result.bind_eq_ok_iff.mpr ⟨_, ht, rfl⟩

theorem addOrder_cons_eq_ok_iff {naming : Naming} {e : Expr} {direction : Direction}
    {keys : List (Expr × Direction)} {s : Statement} {p : Pool} {r : Statement × Pool} :
    addOrder naming ((e, direction) :: keys) s p = .ok r ↔
      ∃ t p₁, conditionTerm naming s e p = .ok (t, p₁) ∧
        addOrder naming keys { s with order := s.order ++ [(t, direction)] } p₁ = .ok r := by
  constructor
  · intro h
    obtain ⟨⟨t, p₁⟩, ht, h⟩ := Result.bind_eq_ok_iff.mp h
    exact ⟨t, p₁, ht, h⟩
  · rintro ⟨t, p₁, ht, h⟩
    exact Result.bind_eq_ok_iff.mpr ⟨_, ht, h⟩

/-- The conditions of the joins from the place `k` on are set; the others stay. -/
theorem addConditions_eq_ok {naming : Naming} {js : List JoinSpec} {s s' : Statement}
    {pool pool' : Pool} {k : Nat} (h : addConditions naming (k + 1) js s pool = .ok (s', pool')) :
    SameTables s s' ∧ (∀ i < k, s'.joins[i]? = s.joins[i]?) ∧
      ∀ i, k ≤ i → i < k + js.length → ∀ j, s'.joins[i]? = some j →
        j.IsConditioned s.tableIds (i + 1) := by
  induction js generalizing s pool k with
  | nil =>
    obtain ⟨rfl, -⟩ := Prod.mk.inj (Except.ok.inj h)
    refine ⟨⟨rfl, rfl, rfl, rfl⟩, fun _ _ => rfl, fun i hi hlt => ?_⟩
    rw [List.length_nil] at hlt
    omega
  | cons js₀ js ih =>
    obtain ⟨condition, pool₁, hcondition, hcheck, h⟩ := addConditions_cons_eq_ok_iff.mp h
    have hplain := conditionTerm_isPlain hcondition
    have hle := checkJoin_eq_ok_iff.mp hcheck
    have hset := sameTables_setCondition s (k + 1) condition
    -- The rest sets conditions after the place `k` only, where this one has been set.
    obtain ⟨hsame, hbefore, hafter⟩ := ih h
    rw [hset.tableIds] at hafter
    refine ⟨hset.trans hsame, fun i hi => ?_, fun i hi hlt j hj => ?_⟩
    · rw [hbefore i (by omega), setCondition_joins_of_ne s (by omega)]
    · rcases Nat.eq_or_lt_of_le hi with rfl | hi
      · rw [hbefore k (Nat.lt_succ_self k), setCondition_joins_self] at hj
        obtain ⟨j', -, rfl⟩ := Option.map_eq_some_iff.mp hj
        exact ⟨condition, rfl, hplain, hle⟩
      · rw [List.length_cons] at hlt
        exact hafter i hi (by omega) j hj

theorem addFilter_eq_ok {naming : Naming} {e? : Option Expr} {s s' : Statement}
    {pool pool' : Pool} (h : addFilter naming e? s pool = .ok (s', pool')) :
    s' = { s with filter? := s'.filter? } ∧
      ∀ t, s'.filter? = some t → s.filter? = some t ∨ Term.IsPlain s.tableIds t := by
  cases e? with
  | none =>
    obtain ⟨rfl, -⟩ := Prod.mk.inj (Except.ok.inj h)
    exact ⟨rfl, fun t ht => Or.inl ht⟩
  | some e =>
    obtain ⟨t, ht, rfl⟩ := addFilter_some_eq_ok_iff.mp h
    refine ⟨rfl, fun t' ht' => Or.inr ?_⟩
    rw [← Option.some.inj ht']
    exact conditionTerm_isPlain ht

theorem addOrder_eq_ok {naming : Naming} {keys : List (Expr × Direction)} {s s' : Statement}
    {pool pool' : Pool} (h : addOrder naming keys s pool = .ok (s', pool')) :
    s' = { s with order := s'.order } ∧
      ∀ key ∈ s'.order, key ∈ s.order ∨ Term.IsPlain s.tableIds key.1 := by
  induction keys generalizing s pool with
  | nil =>
    obtain ⟨rfl, -⟩ := Prod.mk.inj (Except.ok.inj h)
    exact ⟨rfl, fun key hkey => Or.inl hkey⟩
  | cons key keys ih =>
    obtain ⟨e, direction⟩ := key
    obtain ⟨t, pool₁, ht, h⟩ := addOrder_cons_eq_ok_iff.mp h
    obtain ⟨hs, horder⟩ := ih h
    refine ⟨hs, fun key hkey => ?_⟩
    rcases horder key hkey with hold | hplain
    · rcases List.mem_append.mp hold with hold | hnew
      · exact Or.inl hold
      · rw [List.mem_singleton.mp hnew]
        exact Or.inr (conditionTerm_isPlain ht)
    · exact Or.inr hplain

end Statement

/-! ### What is accepted -/

/-- Statement, outputs and mapped tables are in order. -/
structure Stages.IsChecked (st : Stages) : Prop where
  /-- The clauses of the statement are in order. -/
  statement : st.statement.IsChecked
  /-- The outputs read tables of the statement, each value row by row outside aggregates. -/
  outputs : ∀ o ∈ st.outputs, Term.IsOf st.statement.tableIds o.value
  /-- The mapped tables are tables of the statement. -/
  tables : ∀ m ∈ st.compiled.tables, m.table ∈ st.statement.tableIds

theorem QuerySpec.statement_isChecked {naming : Naming} {q : QuerySpec} {s : Statement}
    {pool pool' : Pool} (h : q.statement naming pool = .ok (s, pool')) : s.IsChecked := by
  unfold QuerySpec.statement at h
  obtain ⟨⟨s₁, pool₁⟩, h₁, h⟩ := Result.bind_eq_ok_iff.mp h
  obtain ⟨⟨s₂, pool₂⟩, h₂, h₃⟩ := Result.bind_eq_ok_iff.mp h
  obtain ⟨hsame, -, hjoins⟩ := Statement.addConditions_eq_ok h₁
  obtain ⟨hs₂, hfilter⟩ := Statement.addFilter_eq_ok h₂
  obtain ⟨hs₃, horder⟩ := Statement.addOrder_eq_ok h₃
  -- The tables are those of the query at every stage, and only `addConditions` changes the joins.
  have hids₁ : s₁.tableIds = q.tables.tableIds := hsame.tableIds
  have hids₂ : s₂.tableIds = s₁.tableIds := by rw [hs₂]; rfl
  have hids : s.tableIds = s₂.tableIds := by rw [hs₃]; rfl
  have hjoins₃ : s.joins = s₁.joins := by rw [hs₃, hs₂]
  refine ⟨fun id j hj => ?_, fun t ht => ?_, fun key hkey => ?_⟩
  · cases id with
    | zero => exact absurd hj (by simp [Statement.join?])
    | succ i =>
      have hj : s₁.joins[i]? = some j := by rw [← hjoins₃]; exact hj
      have hlength : s₁.joins.length = q.joins.length := by
        have h := congrArg List.length hsame.sources
        simpa [QuerySpec.tables] using h
      have hi := (List.getElem?_eq_some_iff.mp hj).1
      rw [hids, hids₂, hids₁]
      exact hjoins i (Nat.zero_le i) (by omega) j hj
  · have ht : s₂.filter? = some t := by rw [hs₃] at ht; exact ht
    rw [hids, hids₂]
    rcases hfilter t ht with hold | hplain
    · rw [hsame.filter] at hold
      exact absurd hold (by simp [QuerySpec.tables])
    · exact hplain
  · rw [hids]
    rcases horder key hkey with hold | hplain
    · rw [hs₂, hsame.order] at hold
      exact absurd hold (by simp [QuerySpec.tables])
    · exact hplain

/-- **What is accepted is in order.** -/
theorem Stages.isChecked_of_stages {naming : Naming} {q : QuerySpec} {mapping : Expr}
    {st : Stages} (h : q.stages naming mapping = .ok st) : st.IsChecked := by
  obtain ⟨p, bindings, hs, hcompiled, houtputs⟩ := QuerySpec.stages_eq_ok_iff.mp h
  have hkeeps := compileMapping_keeps (closedValues_foldedBeneath st.statement) hcompiled
  refine ⟨QuerySpec.statement_isChecked hs, fun o ho => ?_, hkeeps.tables⟩
  obtain ⟨o', ho', ht⟩ := QuerySpec.exists_of_mem_resolveOutputs houtputs ho
  exact isOf_of_resolveTree (hkeeps.values o' ho') ht

/-- Every output of the stages is a single value. -/
theorem Stages.isSingle_of_stages {naming : Naming} {q : QuerySpec} {mapping : Expr}
    {st : Stages} (h : q.stages naming mapping = .ok st) :
    ∀ o ∈ st.outputs, o.value.isSingle = true := by
  obtain ⟨p, bindings, -, hcompiled, houtputs⟩ := QuerySpec.stages_eq_ok_iff.mp h
  have hkeeps := compileMapping_keeps (closedValues_isSingle st.statement) hcompiled
  intro o ho
  obtain ⟨o', ho', ht⟩ := QuerySpec.exists_of_mem_resolveOutputs houtputs ho
  exact isSingle_of_resolveTree (hkeeps.values o' ho') ht

end NestedQuery
