import NestedQuery.Proofs.Query.Stages
import NestedQuery.Proofs.Select.Sources
import NestedQuery.Proofs.Select.Untyped

/-!
# Queries with the arguments put in

A query renders for some arguments as it does with the values of these in place of their member
chains (`render_onArguments_iff`): the one compiles and renders iff the other does, to the same text
with the same parameters, and the plans are the same apart from the types of their cells.
-/

namespace NestedQuery

open Compile
open NestedQuery.Expr (HaveValues)

/-! ### Binding -/

namespace Pool

variable {arguments : Document} {p p' : Pool}

/-- What binds has values. -/
theorem hasValues_of_bind_eq_ok {bound : List Value} (h : p.bind arguments = .ok bound) :
    p.HasValues arguments := by
  intro source hsource
  obtain ⟨slot, hslot, rfl⟩ := List.mem_map.mp hsource
  obtain ⟨id, hid⟩ := List.mem_iff_getElem?.mp hslot
  obtain ⟨v, -, hv⟩ := getElem?_of_bind_eq_ok h hid
  exact ⟨v, hv⟩

theorem bindSlot_of_settles {slot slot' : Slot} (h : slot.Settles arguments slot') (id : ParamId) :
    bindSlot .null slot' id = bindSlot arguments slot id := by
  obtain ⟨v, hv, rfl⟩ := h
  rw [bindSlot, bindSlot, hv]
  rfl

theorem bindSlots_of_settles {slots slots' : List Slot}
    (h : List.Forall₂ (Slot.Settles arguments) slots slots') (n : Nat) :
    (slots'.zipIdx n).mapM (fun x => bindSlot .null x.1 x.2) =
      (slots.zipIdx n).mapM fun x => bindSlot arguments x.1 x.2 := by
  induction h generalizing n with
  | nil => rfl
  | cons hslot _ ih =>
    rw [List.zipIdx_cons, List.zipIdx_cons, List.mapM_cons, List.mapM_cons, ih,
      bindSlot_of_settles hslot]

/-- Parameters that have been evaluated bind as before, now for any arguments. -/
theorem Settles.bind (h : p.Settles arguments p') : p'.bind .null = p.bind arguments :=
  bindSlots_of_settles h 0

end Pool

/-! ### Steps with the parameters so far -/

/-- The step `x'` does what `x` does, except that it evaluates parameters at once. -/
structure WithPool.Simulates {α : Type} (arguments : Document) (x x' : WithPool α) : Prop where
  /-- Parameters are only added. -/
  grows : ∀ {p a p₁}, x p = .ok (a, p₁) → p.sources <+: p₁.sources
  /-- What `x` yields, `x'` yields too, if the parameters have values. -/
  forward : ∀ {p p' a p₁}, p.Settles arguments p' → x p = .ok (a, p₁) →
    p₁.HasValues arguments → ∃ p₁', x' p' = .ok (a, p₁') ∧ p₁.Settles arguments p₁'
  /-- What `x'` yields, `x` yields too. -/
  backward : ∀ {p p' a p₁'}, p.Settles arguments p' → x' p' = .ok (a, p₁') →
    ∃ p₁, x p = .ok (a, p₁) ∧ p₁.Settles arguments p₁'

namespace WithPool.Simulates

variable {α β : Type} {arguments : Document}

theorem bind {x x' : WithPool α} {f f' : α → WithPool β} (hx : Simulates arguments x x')
    (hf : ∀ a, Simulates arguments (f a) (f' a)) :
    Simulates arguments (fun p => x p >>= fun y => f y.1 y.2)
      (fun p => x' p >>= fun y => f' y.1 y.2) := by
  refine ⟨fun h => ?_, fun hp h hvalues => ?_, fun hp h => ?_⟩
  · obtain ⟨⟨a, p₁⟩, hxa, hfa⟩ := Result.bind_eq_ok_iff.mp h
    exact (hx.grows hxa).trans ((hf a).grows hfa)
  · obtain ⟨⟨a, p₁⟩, hxa, hfa⟩ := Result.bind_eq_ok_iff.mp h
    obtain ⟨p₁', hxa', hp₁⟩ := hx.forward hp hxa (hvalues.mono ((hf a).grows hfa))
    obtain ⟨p₂', hfa', hp₂⟩ := (hf a).forward hp₁ hfa hvalues
    exact ⟨p₂', Result.bind_eq_ok_iff.mpr ⟨_, hxa', hfa'⟩, hp₂⟩
  · obtain ⟨⟨a, p₁'⟩, hxa', hfa'⟩ := Result.bind_eq_ok_iff.mp h
    obtain ⟨p₁, hxa, hp₁⟩ := hx.backward hp hxa'
    obtain ⟨p₂, hfa, hp₂⟩ := (hf a).backward hp₁ hfa'
    exact ⟨p₂, Result.bind_eq_ok_iff.mpr ⟨_, hxa, hfa⟩, hp₂⟩

theorem pure (a : α) :
    Simulates arguments (fun p => .ok (a, p)) (fun p => .ok (a, p)) := by
  refine ⟨fun h => ?_, fun hp h _ => ?_, fun hp h => ?_⟩
  all_goals obtain ⟨rfl, rfl⟩ := Prod.mk.inj (Except.ok.inj h)
  · exact List.prefix_rfl
  · exact ⟨_, rfl, hp⟩
  · exact ⟨_, rfl, hp⟩

/-- A check that does not look at the parameters may stand in front. -/
theorem check (x : Result Unit) {f f' : WithPool α} (h : Simulates arguments f f') :
    Simulates arguments (fun p => x >>= fun _ => f p) (fun p => x >>= fun _ => f' p) := by
  cases x with
  | ok _ => exact h
  | error e =>
    refine ⟨fun h => ?_, fun _ h => ?_, fun _ h => ?_⟩
    all_goals cases h

end WithPool.Simulates

section

variable {naming : Naming} {arguments : Document}

/-- A condition or ordering key with the arguments put in. -/
theorem conditionTerm_simulates (s : Statement) {e : Expr}
    (h : HaveValues arguments e.argumentPaths) :
    WithPool.Simulates arguments (conditionTerm naming s e)
      (conditionTerm naming s (e.onArguments arguments)) := by
  have := compileCondition_appends s e
  have hcompile := compileCondition_simulates s h
  refine ⟨fun hyields => ?_, fun {p p' t p₁} hp hyields hvalues => ?_,
    fun {p p' t p₁'} hp hyields => ?_⟩
  · obtain ⟨v, bindings, hv, -⟩ := conditionTerm_eq_ok_iff.mp hyields
    exact Grows.prefix_sources hv
  -- Both compile to the same accumulator with the same bindings, so both are resolved alike.
  · obtain ⟨v, bindings, hv, ht⟩ := conditionTerm_eq_ok_iff.mp hyields
    have hc : Collected.Settles arguments { pool := p } { pool := p' } := ⟨hp, rfl⟩
    obtain ⟨v', ⟨p₁', bindings'⟩, hv', rfl, hc₁⟩ := hcompile.forward hc hv hvalues
    obtain rfl : bindings' = bindings := hc₁.bindings
    exact ⟨p₁', conditionTerm_eq_ok_iff.mpr ⟨_, _, hv', ht⟩, hc₁.pool⟩
  · obtain ⟨v', bindings', hv', ht⟩ := conditionTerm_eq_ok_iff.mp hyields
    have hc : Collected.Settles arguments { pool := p } { pool := p' } := ⟨hp, rfl⟩
    obtain ⟨v, ⟨p₁, bindings⟩, hv, rfl, hc₁⟩ := hcompile.backward hc hv'
    obtain rfl : bindings' = bindings := hc₁.bindings
    exact ⟨p₁, conditionTerm_eq_ok_iff.mpr ⟨_, _, hv, ht⟩, hc₁.pool⟩

end

/-! ### Queries -/

/-- The join with the values of the arguments in place of their longest member chains. -/
def JoinSpec.onArguments (arguments : Document) (j : JoinSpec) : JoinSpec :=
  { j with condition := j.condition.onArguments arguments }

namespace QuerySpec

/-- The query with the values of the arguments in place of their longest member chains. -/
def onArguments (arguments : Document) (q : QuerySpec) : QuerySpec :=
  { q with
    joins := q.joins.map (JoinSpec.onArguments arguments)
    filters := q.filters.map (Expr.onArguments arguments)
    order := q.order.map fun key => (key.1.onArguments arguments, key.2) }

/-- The longest member chains of the arguments in a query. -/
def argumentPaths (q : QuerySpec) : List Expr :=
  q.joins.flatMap (fun j => j.condition.argumentPaths) ++
    (q.filters.flatMap Expr.argumentPaths ++ q.order.flatMap fun key => key.1.argumentPaths)

variable {arguments : Document}

theorem tables_onArguments (q : QuerySpec) : (q.onArguments arguments).tables = q.tables := by
  rw [tables, tables, onArguments, List.map_map]
  rfl

theorem onArguments_foldl_and (e : Expr) (es : List Expr) :
    (es.map (Expr.onArguments arguments)).foldl (.binary .and) (e.onArguments arguments) =
      (es.foldl (.binary .and) e).onArguments arguments := by
  rw [List.foldl_map]
  exact List.foldl_hom (Expr.onArguments arguments) fun _ _ => rfl

theorem argumentPaths_foldl_and (e : Expr) (es : List Expr) :
    (es.foldl (.binary .and) e).argumentPaths = (e :: es).flatMap Expr.argumentPaths := by
  induction es generalizing e with
  | nil => exact (List.append_nil _).symm
  | cons e' es ih =>
    rw [List.foldl_cons, ih]
    exact List.append_assoc _ _ _

theorem filter?_onArguments (q : QuerySpec) :
    (q.onArguments arguments).filter? = q.filter?.map (Expr.onArguments arguments) := by
  obtain ⟨primary, joins, filters, order, skip?, take?⟩ := q
  cases filters with
  | nil => rfl
  | cons e es => exact congrArg some (onArguments_foldl_and e es)

/-- The filter mentions what the filters mention. -/
theorem argumentPaths_filter? {q : QuerySpec} {e : Expr} (h : e ∈ q.filter?) :
    e.argumentPaths = q.filters.flatMap Expr.argumentPaths := by
  obtain ⟨primary, joins, filters, order, skip?, take?⟩ := q
  cases filters with
  | nil => cases h
  | cons e' es =>
    obtain rfl := Option.some.inj h
    exact argumentPaths_foldl_and e' es

end QuerySpec

/-! ### Statements -/

section

variable {naming : Naming} {arguments : Document}

namespace Statement

theorem addConditions_simulates {js : List JoinSpec}
    (h : HaveValues arguments (js.flatMap fun j => j.condition.argumentPaths)) (id : TableId)
    (s : Statement) :
    WithPool.Simulates arguments (addConditions naming id js s)
      (addConditions naming id (js.map (JoinSpec.onArguments arguments)) s) := by
  induction js generalizing id s with
  | nil => exact .pure s
  | cons j js ih =>
    obtain ⟨hj, hjs⟩ := List.forall_mem_append.mp h
    exact (conditionTerm_simulates s hj).bind fun condition =>
      .check (s.checkJoin id condition) (ih hjs (id + 1) (s.setCondition id condition))

theorem addFilter_simulates {e? : Option Expr} (h : ∀ e ∈ e?, HaveValues arguments e.argumentPaths)
    (s : Statement) :
    WithPool.Simulates arguments (addFilter naming e? s)
      (addFilter naming (e?.map (Expr.onArguments arguments)) s) := by
  cases e? with
  | none => exact .pure s
  | some e =>
    exact (conditionTerm_simulates s (h e rfl)).bind fun t => .pure { s with filter? := some t }

theorem addOrder_simulates {keys : List (Expr × Direction)}
    (h : HaveValues arguments (keys.flatMap fun key => key.1.argumentPaths)) (s : Statement) :
    WithPool.Simulates arguments (addOrder naming keys s)
      (addOrder naming (keys.map fun key => (key.1.onArguments arguments, key.2)) s) := by
  induction keys generalizing s with
  | nil => exact .pure s
  | cons key keys ih =>
    obtain ⟨hkey, hkeys⟩ := List.forall_mem_append.mp h
    exact (conditionTerm_simulates s hkey).bind fun t =>
      ih hkeys { s with order := s.order ++ [(t, key.2)] }

end Statement

/-- The tables of a query with the arguments put in, and all clauses over them. -/
theorem QuerySpec.statement_simulates {q : QuerySpec} (h : HaveValues arguments q.argumentPaths) :
    WithPool.Simulates arguments (q.statement naming)
      ((q.onArguments arguments).statement naming) := by
  obtain ⟨hjoins, h⟩ := List.forall_mem_append.mp h
  obtain ⟨hfilters, horder⟩ := List.forall_mem_append.mp h
  have hfilter : ∀ e ∈ q.filter?, HaveValues arguments e.argumentPaths := fun e he =>
    (argumentPaths_filter? he).symm ▸ hfilters
  unfold QuerySpec.statement
  rw [tables_onArguments, filter?_onArguments]
  exact (Statement.addConditions_simulates hjoins 1 q.tables).bind fun s =>
    (Statement.addFilter_simulates hfilter s).bind fun s => Statement.addOrder_simulates horder s

end

/-! ### Stages -/

/-- Types are not looked at when the leaves are resolved. -/
theorem QuerySpec.resolveOutputs_untyped (r : Resolver) (outputs : List (Output Symbol)) :
    resolveOutputs r (outputs.map Output.untyped) =
      List.map Output.untyped <$> resolveOutputs r outputs := by
  induction outputs with
  | nil => rfl
  | cons o os ih =>
    unfold resolveOutputs at ih ⊢
    rw [List.map_cons, List.mapM_cons, List.mapM_cons, ih]
    simp only [map_bind, bind_map_left, bind_assoc, pure_bind, map_pure]
    rfl

/-- The stages are the same apart from types, and the parameters have been evaluated. -/
structure Stages.Settles (arguments : Document) (st st' : Stages) : Prop where
  statement : st'.statement = st.statement
  tables : st'.compiled.tables = st.compiled.tables
  outputs : st'.outputs.map Output.untyped = st.outputs.map Output.untyped
  pool : st.pool.Settles arguments st'.pool

section

variable {naming : Naming} {arguments : Document} {q : QuerySpec} {mapping : Expr}

/-- Results that are the same apart from types are resolved to the same apart from types. -/
theorem Compiled.Alike.resolveOutputs_eq_ok {c c' : Compiled} (h : c.Alike c') {r : Resolver}
    {outputs : List (Output Cell)} (ho : QuerySpec.resolveOutputs r c.outputs = .ok outputs) :
    ∃ outputs', QuerySpec.resolveOutputs r c'.outputs = .ok outputs' ∧
      outputs'.map Output.untyped = outputs.map Output.untyped := by
  have houtputs : c.outputs.map Output.untyped = c'.outputs.map Output.untyped :=
    congrArg Compiled.outputs h
  have hresolve := QuerySpec.resolveOutputs_untyped r c'.outputs
  rw [← houtputs, QuerySpec.resolveOutputs_untyped, ho] at hresolve
  cases hc' : QuerySpec.resolveOutputs r c'.outputs with
  | error e =>
    rw [hc'] at hresolve
    cases hresolve
  | ok outputs' =>
    rw [hc'] at hresolve
    exact ⟨outputs', rfl, (Except.ok.inj hresolve).symm⟩

theorem QuerySpec.stages_onArguments {st : Stages} (hq : HaveValues arguments q.argumentPaths)
    (hmapping : HaveValues arguments mapping.argumentPaths)
    (h : q.stages naming mapping = .ok st) (hvalues : st.pool.HasValues arguments) :
    ∃ st', (q.onArguments arguments).stages naming (mapping.onArguments arguments) = .ok st' ∧
      st.Settles arguments st' := by
  obtain ⟨p, bindings, hs, hc, ho⟩ := stages_eq_ok_iff.mp h
  -- The parameters of the statement are among those of the mapping, which have values.
  have := compileMapping_appends st.statement mapping
  have hgrows := Grows.prefix_sources hc
  obtain ⟨p', hs', hp⟩ := (statement_simulates hq).forward .nil hs (hvalues.mono hgrows)
  have hstart : Collected.Settles arguments { pool := p } { pool := p' } := ⟨hp, rfl⟩
  obtain ⟨compiled', ⟨pool', bindings'⟩, hc', halike, hsettles⟩ :=
    (compileMapping_simulates st.statement hmapping).forward hstart hc hvalues
  obtain rfl : bindings' = bindings := hsettles.bindings
  obtain ⟨outputs', ho', houtputs⟩ := halike.resolveOutputs_eq_ok ho
  exact ⟨⟨st.statement, compiled', outputs', pool'⟩, stages_eq_ok_iff.mpr ⟨p', _, hs', hc', ho'⟩,
    rfl, halike.tables.symm, houtputs, hsettles.pool⟩

theorem QuerySpec.stages_of_onArguments {st' : Stages}
    (hq : HaveValues arguments q.argumentPaths)
    (hmapping : HaveValues arguments mapping.argumentPaths)
    (h : (q.onArguments arguments).stages naming (mapping.onArguments arguments) = .ok st') :
    ∃ st, q.stages naming mapping = .ok st ∧ st.Settles arguments st' := by
  obtain ⟨p', bindings', hs', hc', ho'⟩ := stages_eq_ok_iff.mp h
  obtain ⟨p, hs, hp⟩ := (statement_simulates hq).backward .nil hs'
  have hstart : Collected.Settles arguments { pool := p } { pool := p' } := ⟨hp, rfl⟩
  obtain ⟨compiled, ⟨pool, bindings⟩, hc, halike, hsettles⟩ :=
    (compileMapping_simulates st'.statement hmapping).backward hstart hc'
  obtain rfl : bindings' = bindings := hsettles.bindings
  obtain ⟨outputs, ho, houtputs⟩ := Compiled.Alike.resolveOutputs_eq_ok halike.symm ho'
  exact ⟨⟨st'.statement, compiled, outputs, pool⟩, stages_eq_ok_iff.mpr ⟨p, _, hs, hc, ho⟩,
    rfl, halike.tables.symm, houtputs.symm, hsettles.pool⟩

/-- From such stages the same is assembled apart from types. -/
theorem Stages.Settles.assemble {st st' : Stages} (h : st.Settles arguments st')
    (engine : Engine) :
    Assembled.untyped <$> (st'.assembler engine).assemble st'.outputs st'.compiled.tables =
      Assembled.untyped <$> (st.assembler engine).assemble st.outputs st.compiled.tables := by
  rw [← Assembler.assemble_untyped, ← Assembler.assemble_untyped, h.outputs, h.tables]
  unfold Stages.assembler
  rw [h.statement]
  exact Assembler.assemble_congr h.pool.isExpanded _ _

/-! ### Rendering -/

/-- Statements that are the same are rendered alike with parameters that have been evaluated. -/
theorem Pool.Settles.render {p p' : Pool} (h : p.Settles arguments p') {a a' : Assembled}
    (ha : a'.untyped = a.untyped) (engine : Engine) :
    (Query.mk a'.sql a'.plan p' engine).render .null =
      (Query.mk a.sql a.plan p engine).render arguments := by
  have hsql : a'.untyped.sql = a.untyped.sql := congrArg Assembled.sql ha
  unfold Query.render
  rw [h.bind]
  exact congrArg (fun sql => p.bind arguments >>= Fragment.render sql engine.dialect) hsql

/-- **Arguments are constants.** Suppose that each of the longest member chains of the arguments in
a query and its mapping leads to a document without objects, that is, to one that has a value. Then
a query compiles and renders for the arguments iff it does with these values in place of the
chains, where no arguments are needed any more. The text and the parameters are the same, and so
are the plans apart from the types of their cells. -/
theorem render_onArguments_iff {settings : Settings}
    (harguments : ∀ path ∈ q.argumentPaths ++ mapping.argumentPaths,
      ∃ d, path.navigate arguments = .ok d ∧ d.holdsObject = false)
    {n n' : Nat} {rendered : Rendered} {plan : Plan} :
    (∃ query, (q.compile settings mapping).run n = .ok (query, n') ∧
        query.render arguments = .ok rendered ∧ query.plan.untyped = plan) ↔
      ∃ query, ((q.onArguments arguments).compile settings (mapping.onArguments arguments)).run n =
          .ok (query, n') ∧
        query.render .null = .ok rendered ∧ query.plan.untyped = plan := by
  have hvalues : HaveValues arguments (q.argumentPaths ++ mapping.argumentPaths) := by
    intro path hp
    obtain ⟨d, hd, hobject⟩ := harguments path hp
    exact Expr.hasValue_of_navigate_eq_ok hd hobject
  obtain ⟨hq, hmapping⟩ := List.forall_mem_append.mp hvalues
  constructor
  · rintro ⟨query, hcompile, hrender, rfl⟩
    obtain ⟨st, assembled, hst, hassemble, rfl⟩ := QuerySpec.compile_run_eq_ok_iff.mp hcompile
    -- What is rendered has been bound, so all parameters have values.
    obtain ⟨bound, hbound, -⟩ := Result.bind_eq_ok_iff.mp hrender
    obtain ⟨st', hst', hsettles⟩ :=
      QuerySpec.stages_onArguments hq hmapping hst (Pool.hasValues_of_bind_eq_ok hbound)
    obtain ⟨assembled', hassemble', huntyped⟩ :=
      Assembly.exists_run_eq_ok (hsettles.assemble settings.engine) hassemble
    refine ⟨_, QuerySpec.compile_run_eq_ok_iff.mpr ⟨st', assembled', hst', hassemble', rfl⟩, ?_, ?_⟩
    · exact (hsettles.pool.render huntyped settings.engine).trans hrender
    · exact congrArg Assembled.plan huntyped
  · rintro ⟨query, hcompile, hrender, rfl⟩
    obtain ⟨st', assembled', hst', hassemble', rfl⟩ := QuerySpec.compile_run_eq_ok_iff.mp hcompile
    obtain ⟨st, hst, hsettles⟩ := QuerySpec.stages_of_onArguments hq hmapping hst'
    obtain ⟨assembled, hassemble, huntyped⟩ :=
      Assembly.exists_run_eq_ok (hsettles.assemble settings.engine).symm hassemble'
    refine ⟨_, QuerySpec.compile_run_eq_ok_iff.mpr ⟨st, assembled, hst, hassemble, rfl⟩, ?_, ?_⟩
    · exact (hsettles.pool.render huntyped.symm settings.engine).symm.trans hrender
    · exact congrArg Assembled.plan huntyped

end

/-- The people of some names, with their classes of one title, by how far their numbers are from a
given one. -/
def titledPeople : QuerySpec :=
  { people with
    joins := [{ classJoin with
      condition := .binary .and classJoin.condition
        (.binary .eq (shapeField "classes" "title") (.member .args "title")) }]
    filters := [.binary .isIn (shapeField "person" "name") (.member .args "names")]
    order := [(.binary .sub (shapeField "person" "id") (.member (.member .args "page") "start"),
      .desc)] }

/-- A greeting and the name of each person, and the numbers of the classes. -/
def greetedClasses : Expr :=
  .object [("greeting", .member .args "greeting"), ("name", shapeField "person" "name"),
    ("classes", .toList (.select (.member .row "classes") "c" (.member (.var "c") "id")))]

/-- Two names, a title, a number and a greeting. -/
def titledArguments : Document :=
  .object [("title", .text "Logic"), ("names", .array [.text "Ann", .text "Bo"]),
    ("page", .object [("start", .integer 10)]), ("greeting", .text "Hello")]

/-- The five parameters are the same. The type of the greeting is not known as long as it comes from
the arguments. -/
theorem render_onArguments_iff_titledPeople :
    (∀ path ∈ titledPeople.argumentPaths ++ greetedClasses.argumentPaths,
      ∃ d, path.navigate titledArguments = .ok d ∧ d.holdsObject = false) ∧
    ∃ query query' n' rendered,
      (titledPeople.compile {} greetedClasses).run 0 = .ok (query, n') ∧
      query.render titledArguments = .ok rendered ∧
      ((titledPeople.onArguments titledArguments).compile {}
        (greetedClasses.onArguments titledArguments)).run 0 = .ok (query', n') ∧
      query'.render .null = .ok rendered ∧ rendered.params.length = 5 ∧
      query'.plan.untyped = query.plan.untyped ∧
      query.plan.columns.map PlanColumn.type = [.any, .text, .integer] := by
  have hpaths : (titledPeople.argumentPaths ++ greetedClasses.argumentPaths).all (fun path =>
      (path.navigate titledArguments).any fun d => d.holdsObject == false) = true := by
    decide +kernel
  have harguments : ∀ path ∈ titledPeople.argumentPaths ++ greetedClasses.argumentPaths,
      ∃ d, path.navigate titledArguments = .ok d ∧ d.holdsObject = false := by
    intro path hpath
    obtain ⟨d, hd, hobject⟩ := Result.any_eq_true_iff.mp (List.all_eq_true.mp hpaths path hpath)
    exact ⟨d, hd, beq_iff_eq.mp hobject⟩
  have hrun : ((titledPeople.compile {} greetedClasses).run 0).any (fun x =>
      (x.1.render titledArguments).any (fun r => r.params.length == 5) &&
        x.1.plan.columns.map PlanColumn.type == [.any, .text, .integer]) = true := by
    decide +kernel
  obtain ⟨⟨query, n'⟩, hquery, hchecked⟩ := Result.any_eq_true_iff.mp hrun
  obtain ⟨hrender, htypes⟩ := Bool.and_eq_true_iff.mp hchecked
  obtain ⟨rendered, hrendered, hlength⟩ := Result.any_eq_true_iff.mp hrender
  obtain ⟨query', hquery', hrendered', hplan⟩ :=
    (render_onArguments_iff harguments).mp ⟨query, hquery, hrendered, rfl⟩
  exact ⟨harguments, query, query', n', rendered, hquery, hrendered, hquery', hrendered',
    beq_iff_eq.mp hlength, hplan, beq_iff_eq.mp htypes⟩

end NestedQuery
