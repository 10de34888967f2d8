import NestedQuery.Proofs.Mapping.Replacement
import NestedQuery.Proofs.Query.Stages
import NestedQuery.Proofs.Select.Untyped

/-!
# Queries with parts replaced

Parts of a query may be replaced in its join conditions, filters and ordering keys as well as in its
mapping (`QuerySpec.Replaces`). If that does not show in any expression, the query compiles as
before, to the same statement and the same plan, and its parameters have the same values for all
arguments (`Query.Interchangeable`, `QuerySpec.compile_replaced`).
-/

namespace NestedQuery

open Compile
open NestedQuery.Expr (Replacement ReplacesValue ReplacesInside SameValues)

/-! ### Parameters -/

namespace Pool

variable {p p' : Pool}

/-- Parameters that resemble each other have the same marks. -/
theorem Resembles.isExpanded {V : Expr → Expr → Prop} (h : p.Resembles V p') (id : ParamId) :
    p'.isExpanded id = p.isExpanded id := by
  have hmarks : ∀ {slots slots' : List Slot}, List.Forall₂ (Slot.Resembles V) slots slots' →
      slots'.map Slot.expanded = slots.map Slot.expanded := by
    intro slots slots' h
    induction h with
    | nil => rfl
    | cons hslot _ ih => rw [List.map_cons, List.map_cons, hslot.expanded, ih]
  rw [Pool.isExpanded, Pool.isExpanded, ← List.getElem?_map, ← List.getElem?_map, hmarks h]

theorem toOption_bindSlot (arguments : Document) {slot slot' : Slot}
    (h : slot.Resembles SameValues slot') (id : ParamId) :
    (bindSlot arguments slot' id).toOption = (bindSlot arguments slot id).toOption := by
  have hsource : (sourceValue arguments slot'.source).toOption =
      (sourceValue arguments slot.source).toOption := by
    have hresembles := h.source
    generalize slot.source = source, slot'.source = source' at hresembles
    cases hresembles with
    | value v => rfl
    | deferred h => exact h.evaluate arguments
  rw [bindSlot, bindSlot, Result.toOption_bind, Result.toOption_bind, hsource, h.expanded]

/-- Parameters with the same values bind to the same. -/
theorem Resembles.toOption_bind (h : p.Resembles SameValues p') (arguments : Document) :
    (p'.bind arguments).toOption = (p.bind arguments).toOption := by
  have hslots : ∀ {slots slots' : List Slot},
      List.Forall₂ (Slot.Resembles SameValues) slots slots' → ∀ n,
        ((slots'.zipIdx n).mapM fun x => bindSlot arguments x.1 x.2).toOption =
          ((slots.zipIdx n).mapM fun x => bindSlot arguments x.1 x.2).toOption := by
    intro slots slots' h
    induction h with
    | nil => exact fun _ => rfl
    | cons hslot _ ih =>
      intro n
      rw [List.zipIdx_cons, List.zipIdx_cons, List.mapM_cons, List.mapM_cons]
      simp only [Result.toOption_bind, toOption_bindSlot arguments hslot, ih]
  exact hslots h 0

end Pool

/-! ### Steps with the parameters so far -/

/-- From parameters that resemble each other, the steps yield the same, and parameters that do
so. -/
structure WithPool.Agrees {α : Type} (V : Expr → Expr → Prop) (x x' : WithPool α) : Prop where
  /-- What `x` yields, `x'` yields too. -/
  forward : ∀ {p p' a p₁}, p.Resembles V p' → x p = .ok (a, p₁) →
    ∃ p₁', x' p' = .ok (a, p₁') ∧ p₁.Resembles V p₁'
  /-- What `x'` yields, `x` yields too. -/
  backward : ∀ {p p' a p₁'}, p.Resembles V p' → x' p' = .ok (a, p₁') →
    ∃ p₁, x p = .ok (a, p₁) ∧ p₁.Resembles V p₁'

namespace WithPool.Agrees

variable {α β : Type} {V : Expr → Expr → Prop}

theorem bind {x x' : WithPool α} {f f' : α → WithPool β} (hx : Agrees V x x')
    (hf : ∀ a, Agrees V (f a) (f' a)) :
    Agrees V (fun p => x p >>= fun y => f y.1 y.2) (fun p => x' p >>= fun y => f' y.1 y.2) := by
  refine ⟨fun hp h => ?_, fun hp h => ?_⟩
  · obtain ⟨⟨a, p₁⟩, hxa, hfa⟩ := Result.bind_eq_ok_iff.mp h
    obtain ⟨p₁', hxa', hp₁⟩ := hx.forward hp hxa
    obtain ⟨p₂', hfa', hp₂⟩ := (hf a).forward hp₁ hfa
    exact ⟨p₂', Result.bind_eq_ok_iff.mpr ⟨_, hxa', hfa'⟩, hp₂⟩
  · obtain ⟨⟨a, p₁'⟩, hxa', hfa'⟩ := Result.bind_eq_ok_iff.mp h
    obtain ⟨p₁, hxa, hp₁⟩ := hx.backward hp hxa'
    obtain ⟨p₂, hfa, hp₂⟩ := (hf a).backward hp₁ hfa'
    exact ⟨p₂, Result.bind_eq_ok_iff.mpr ⟨_, hxa, hfa⟩, hp₂⟩

theorem pure (a : α) : Agrees V (fun p => .ok (a, p)) (fun p => .ok (a, p)) := by
  refine ⟨fun hp h => ?_, fun hp h => ?_⟩
  all_goals
    obtain ⟨rfl, rfl⟩ := Prod.mk.inj (Except.ok.inj h)
    exact ⟨_, rfl, hp⟩

/-- A check that does not look at the parameters may stand in front. -/
theorem check (x : Result Unit) {f f' : WithPool α} (h : Agrees V f f') :
    Agrees V (fun p => x >>= fun _ => f p) (fun p => x >>= fun _ => f' p) := by
  cases x with
  | ok _ => exact h
  | error e =>
    refine ⟨fun _ h => ?_, fun _ h => ?_⟩
    all_goals cases h

end WithPool.Agrees

/-! ### Queries -/

section

variable (ρ : Replacement)

/-- Parts of the join condition are replaced. -/
structure JoinSpec.Replaces (j j' : JoinSpec) : Prop where
  toSource : j'.toSource = j.toSource
  cardinality : j'.cardinality = j.cardinality
  kind : j'.kind = j.kind
  condition : ReplacesValue ρ j.condition j'.condition

/-- Parts of the join conditions, filters and ordering keys are replaced. -/
structure QuerySpec.Replaces (q q' : QuerySpec) : Prop where
  primary : q'.primary = q.primary
  joins : List.Forall₂ (JoinSpec.Replaces ρ) q.joins q'.joins
  filters : List.Forall₂ (ReplacesValue ρ) q.filters q'.filters
  order : List.Forall₂ (fun key key' => ReplacesValue ρ key.1 key'.1 ∧ key'.2 = key.2)
    q.order q'.order
  skip : q'.skip? = q.skip?
  take : q'.take? = q.take?

end

/-- The queries are the same statement with the same plan, and their parameters have the same values
for all arguments. -/
structure Query.Interchangeable (query query' : Query) : Prop where
  sql : query'.sql = query.sql
  plan : query'.plan = query.plan
  engine : query'.engine = query.engine
  bind : ∀ arguments, (query'.pool.bind arguments).toOption = (query.pool.bind arguments).toOption

/-- They are rendered alike. -/
theorem Query.Interchangeable.render {query query' : Query} (h : query.Interchangeable query')
    (arguments : Document) :
    (query'.render arguments).toOption = (query.render arguments).toOption := by
  rw [Query.render, Query.render, Result.toOption_bind, Result.toOption_bind, h.bind, h.sql,
    h.engine]

section

variable {V : Expr → Expr → Prop} {ρ : Replacement} {naming : Naming} {q q' : QuerySpec}

/-- A condition or ordering key with parts replaced. -/
theorem conditionTerm_agrees {s : Statement} (h : Unseen V True s ρ) {e e' : Expr}
    (he : ReplacesValue ρ e e') :
    WithPool.Agrees V (conditionTerm naming s e) (conditionTerm naming s e') := by
  have hcompile := compileCondition_agrees h he
  refine ⟨fun {p p' t p₁} hp hyields => ?_, fun {p p' t p₁'} hp hyields => ?_⟩
  · obtain ⟨v, bindings, hv, ht⟩ := conditionTerm_eq_ok_iff.mp hyields
    have hc : Collected.Resembles V { pool := p } { pool := p' } := ⟨hp, rfl⟩
    obtain ⟨⟨p₁', bindings'⟩, hv', hc₁⟩ := hcompile.forward trivial hc hv
    obtain rfl : bindings' = bindings := hc₁.bindings
    exact ⟨p₁', conditionTerm_eq_ok_iff.mpr ⟨_, _, hv', ht⟩, hc₁.pool⟩
  · obtain ⟨v, bindings', hv', ht⟩ := conditionTerm_eq_ok_iff.mp hyields
    have hc : Collected.Resembles V { pool := p } { pool := p' } := ⟨hp, rfl⟩
    obtain ⟨⟨p₁, bindings⟩, hv, hc₁⟩ := hcompile.backward hc hv'
    obtain rfl : bindings' = bindings := hc₁.bindings
    exact ⟨p₁, conditionTerm_eq_ok_iff.mpr ⟨_, _, hv, ht⟩, hc₁.pool⟩

namespace Statement

theorem addConditions_agrees (h : ∀ s, Unseen V True s ρ) {js js' : List JoinSpec}
    (hjs : List.Forall₂ (JoinSpec.Replaces ρ) js js') (id : TableId) (s : Statement) :
    WithPool.Agrees V (addConditions naming id js s) (addConditions naming id js' s) := by
  induction hjs generalizing id s with
  | nil => exact .pure s
  | cons hj _ ih =>
    exact (conditionTerm_agrees (h s) hj.condition).bind fun condition =>
      .check (s.checkJoin id condition) (ih (id + 1) (s.setCondition id condition))

theorem addFilter_agrees (h : ∀ s, Unseen V True s ρ) {e? e'? : Option Expr}
    (he : Option.Rel (ReplacesValue ρ) e? e'?) (s : Statement) :
    WithPool.Agrees V (addFilter naming e? s) (addFilter naming e'? s) := by
  cases he with
  | none => exact .pure s
  | some he =>
    exact (conditionTerm_agrees (h s) he).bind fun t => .pure { s with filter? := some t }

theorem addOrder_agrees (h : ∀ s, Unseen V True s ρ) {keys keys' : List (Expr × Direction)}
    (hkeys : List.Forall₂ (fun key key' => ReplacesValue ρ key.1 key'.1 ∧ key'.2 = key.2)
      keys keys') (s : Statement) :
    WithPool.Agrees V (addOrder naming keys s) (addOrder naming keys' s) := by
  induction hkeys generalizing s with
  | nil => exact .pure s
  | @cons key key' _ _ hkey _ ih =>
    obtain ⟨e, direction⟩ := key
    obtain ⟨e', direction'⟩ := key'
    obtain ⟨he, rfl⟩ := hkey
    exact (conditionTerm_agrees (h s) he).bind fun t =>
      ih { s with order := s.order ++ [(t, direction')] }

end Statement

namespace QuerySpec

theorem Replaces.tables_eq (h : q.Replaces ρ q') : q'.tables = q.tables := by
  have hjoins : q'.joins.map (fun j => ({ j with on? := none } : Join)) =
      q.joins.map fun j => ({ j with on? := none } : Join) := by
    have hforall := h.joins
    generalize q.joins = js, q'.joins = js' at hforall
    induction hforall with
    | nil => rfl
    | cons hj _ ih =>
      rw [List.map_cons, List.map_cons, ih, hj.toSource, hj.cardinality, hj.kind]
  rw [tables, tables, h.primary, h.skip, h.take]
  exact congrArg (fun joins => Statement.mk _ joins _ _ _ _) hjoins

/-- All filters in one, with the parts of each replaced. -/
theorem Replaces.filter? (h : q.Replaces ρ q') :
    Option.Rel (ReplacesValue ρ) q.filter? q'.filter? := by
  have hfold : ∀ {es es' : List Expr}, List.Forall₂ (ReplacesValue ρ) es es' → ∀ {e e' : Expr},
      ReplacesValue ρ e e' →
        ReplacesValue ρ (es.foldl (.binary .and) e) (es'.foldl (.binary .and) e') := by
    intro es es' hes
    induction hes with
    | nil => exact id
    | cons hhead _ ih => exact fun he => ih (.expr (.inside (.binary _ he hhead)))
  have hfilters := h.filters
  unfold QuerySpec.filter?
  generalize q.filters = filters, q'.filters = filters' at hfilters
  cases hfilters with
  | nil => exact .none
  | cons he hes => exact .some (hfold hes he)

/-- The tables of a query with parts replaced, and all clauses over them. -/
theorem statement_agrees (h : ∀ s, Unseen V True s ρ) (hq : q.Replaces ρ q') :
    WithPool.Agrees V (q.statement naming) (q'.statement naming) := by
  unfold QuerySpec.statement
  rw [hq.tables_eq]
  exact (Statement.addConditions_agrees h hq.joins 1 q.tables).bind fun s =>
    (Statement.addFilter_agrees h hq.filter? s).bind fun s => Statement.addOrder_agrees h hq.order s

end QuerySpec

end

/-! ### Stages -/

/-- The stages are the same, and their parameters resemble each other. -/
structure Stages.Resembles (V : Expr → Expr → Prop) (st st' : Stages) : Prop where
  statement : st'.statement = st.statement
  compiled : st'.compiled = st.compiled
  outputs : st'.outputs = st.outputs
  pool : st.pool.Resembles V st'.pool

/-- The same is assembled from them. -/
theorem Stages.Resembles.assemble {V : Expr → Expr → Prop} {st st' : Stages}
    (h : st.Resembles V st') (engine : Engine) :
    (st'.assembler engine).assemble st'.outputs st'.compiled.tables =
      (st.assembler engine).assemble st.outputs st.compiled.tables := by
  rw [h.outputs, h.compiled, Stages.assembler, Stages.assembler, h.statement]
  exact Assembler.assemble_congr h.pool.isExpanded _ _

namespace QuerySpec

variable {V : Expr → Expr → Prop} {ρ : Replacement} {naming : Naming} {q q' : QuerySpec}
  {m m' : Expr}

theorem stages_forward (h : ∀ s, Unseen V True s ρ) (hq : q.Replaces ρ q')
    (hm : ReplacesValue ρ m m') {st : Stages} (hst : q.stages naming m = .ok st) :
    ∃ st', q'.stages naming m' = .ok st' ∧ st.Resembles V st' := by
  obtain ⟨p, bindings, hs, hc, ho⟩ := stages_eq_ok_iff.mp hst
  obtain ⟨p', hs', hp⟩ := (statement_agrees h hq).forward .nil hs
  have hstart : Collected.Resembles V { pool := p } { pool := p' } := ⟨hp, rfl⟩
  obtain ⟨⟨pool', bindings'⟩, hc', hresembles⟩ :=
    (compileMapping_agrees (h st.statement) hm).forward trivial hstart hc
  obtain rfl : bindings' = bindings := hresembles.bindings
  exact ⟨⟨st.statement, st.compiled, st.outputs, pool'⟩,
    stages_eq_ok_iff.mpr ⟨p', _, hs', hc', ho⟩, rfl, rfl, rfl, hresembles.pool⟩

theorem stages_backward (h : ∀ s, Unseen V True s ρ) (hq : q.Replaces ρ q')
    (hm : ReplacesValue ρ m m') {st' : Stages} (hst' : q'.stages naming m' = .ok st') :
    ∃ st, q.stages naming m = .ok st ∧ st.Resembles V st' := by
  obtain ⟨p', bindings', hs', hc', ho'⟩ := stages_eq_ok_iff.mp hst'
  obtain ⟨p, hs, hp⟩ := (statement_agrees h hq).backward .nil hs'
  have hstart : Collected.Resembles V { pool := p } { pool := p' } := ⟨hp, rfl⟩
  obtain ⟨⟨pool, bindings⟩, hc, hresembles⟩ :=
    (compileMapping_agrees (h st'.statement) hm).backward hstart hc'
  obtain rfl : bindings' = bindings := hresembles.bindings
  exact ⟨⟨st'.statement, st'.compiled, st'.outputs, pool⟩,
    stages_eq_ok_iff.mpr ⟨p, _, hs, hc, ho'⟩, rfl, rfl, rfl, hresembles.pool⟩

/-- **Replacements in a query** that do not show in its expressions do not show in what it compiles
to, or both do not compile. -/
theorem compile_replaced (h : ∀ s, Unseen SameValues True s ρ) (hq : q.Replaces ρ q')
    (hm : ReplacesValue ρ m m') (settings : Settings) (n n' : Nat) :
    (∀ query, (q.compile settings m).run n = .ok (query, n') →
      ∃ query', (q'.compile settings m').run n = .ok (query', n') ∧
        query.Interchangeable query') ∧
    ∀ query', (q'.compile settings m').run n = .ok (query', n') →
      ∃ query, (q.compile settings m).run n = .ok (query, n') ∧ query.Interchangeable query' := by
  constructor
  · intro query hquery
    obtain ⟨st, assembled, hst, hassemble, rfl⟩ := compile_run_eq_ok_iff.mp hquery
    obtain ⟨st', hst', hresembles⟩ := stages_forward h hq hm hst
    rw [← hresembles.assemble] at hassemble
    exact ⟨_, compile_run_eq_ok_iff.mpr ⟨st', assembled, hst', hassemble, rfl⟩, rfl, rfl, rfl,
      hresembles.pool.toOption_bind⟩
  · intro query' hquery'
    obtain ⟨st', assembled, hst', hassemble, rfl⟩ := compile_run_eq_ok_iff.mp hquery'
    obtain ⟨st, hst, hresembles⟩ := stages_backward h hq hm hst'
    rw [hresembles.assemble] at hassemble
    exact ⟨_, compile_run_eq_ok_iff.mpr ⟨st, assembled, hst, hassemble, rfl⟩, rfl, rfl, rfl,
      hresembles.pool.toOption_bind⟩

end QuerySpec

end NestedQuery
