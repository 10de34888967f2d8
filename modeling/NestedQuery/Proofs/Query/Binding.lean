import NestedQuery.Proofs.Mapping.Invariants
import NestedQuery.Proofs.Query.Stages
import NestedQuery.Proofs.Select.Uses

/-!
# Binding is all that can fail

A compiled query is rendered for some arguments just if its parameters are bound
(`QuerySpec.render_eq_error_iff`). The compiler marks the sets of membership tests as lists and
yields values whose parameters the pool admits, for conditions, filters and ordering keys as for the
mapping; later stages only add parameters. So the assembled statement uses every parameter as it is
marked, and what is bound fits the use.
-/

namespace NestedQuery

variable {naming : Naming}

/-! ### Conditions -/

theorem conditionTerm_isAdmitted {s : Statement} {e : Expr} {p p' : Pool} {t : Term}
    (h : conditionTerm naming s e p = .ok (t, p')) :
    p.slots <+: p'.slots ∧ t.IsAdmitted p' false := by
  obtain ⟨v, bindings, hv, ht⟩ := conditionTerm_eq_ok_iff.mp h
  -- Whether variables are free does not matter here.
  have hensures : Ensures (fun _ => True) _ _ (compileCondition s e) :=
    compileCondition_ensures s (c := { pool := p }) Grounded.nil fun _ _ => trivial
  obtain ⟨hgrows, hv⟩ := hensures.yields hv
  exact ⟨hgrows.slots, hv.isAdmitted ht⟩

namespace Statement

variable {s s' : Statement} {p p' : Pool}

theorem IsAdmitted.mono (h : s.IsAdmitted p) (hpp' : p.slots <+: p'.slots) : s.IsAdmitted p' where
  on j hj t ht := (h.on j hj t ht).mono hpp'
  filter t ht := (h.filter t ht).mono hpp'
  order key hkey := (h.order key hkey).mono hpp'

theorem IsAdmitted.setCondition (h : s.IsAdmitted p) (id : TableId) {condition : Term}
    (hcondition : condition.IsAdmitted p false) : (s.setCondition id condition).IsAdmitted p where
  on j hj t ht := by
    obtain ⟨i, hi⟩ := List.mem_iff_getElem?.mp hj
    rw [Statement.setCondition, List.getElem?_modify] at hi
    obtain ⟨j', hj', rfl⟩ := Option.map_eq_some_iff.mp hi
    split at ht
    · rwa [← Option.some.inj ht]
    · exact h.on j' (List.mem_of_getElem? hj') t ht
  filter := h.filter
  order := h.order

theorem addConditions_isAdmitted {js : List JoinSpec} {id : TableId} (hs : s.IsAdmitted p)
    (h : addConditions naming id js s p = .ok (s', p')) :
    p.slots <+: p'.slots ∧ s'.IsAdmitted p' := by
  induction js generalizing id s p with
  | nil =>
    obtain ⟨rfl, rfl⟩ := Prod.mk.inj (Except.ok.inj h)
    exact ⟨List.prefix_rfl, hs⟩
  | cons j js ih =>
    obtain ⟨condition, p₁, hcondition, -, h⟩ := addConditions_cons_eq_ok_iff.mp h
    obtain ⟨hp₁, hadmitted⟩ := conditionTerm_isAdmitted hcondition
    obtain ⟨hp', hs'⟩ := ih ((hs.mono hp₁).setCondition id hadmitted) h
    exact ⟨hp₁.trans hp', hs'⟩

theorem addFilter_isAdmitted {e? : Option Expr} (hs : s.IsAdmitted p)
    (h : addFilter naming e? s p = .ok (s', p')) : p.slots <+: p'.slots ∧ s'.IsAdmitted p' := by
  cases e? with
  | none =>
    obtain ⟨rfl, rfl⟩ := Prod.mk.inj (Except.ok.inj h)
    exact ⟨List.prefix_rfl, hs⟩
  | some e =>
    obtain ⟨t, ht, rfl⟩ := addFilter_some_eq_ok_iff.mp h
    obtain ⟨hp₁, hadmitted⟩ := conditionTerm_isAdmitted ht
    have hs₁ := hs.mono hp₁
    exact ⟨hp₁, hs₁.on, fun t' ht' => Option.some.inj ht' ▸ hadmitted, hs₁.order⟩

theorem addOrder_isAdmitted {keys : List (Expr × Direction)} (hs : s.IsAdmitted p)
    (h : addOrder naming keys s p = .ok (s', p')) : p.slots <+: p'.slots ∧ s'.IsAdmitted p' := by
  induction keys generalizing s p with
  | nil =>
    obtain ⟨rfl, rfl⟩ := Prod.mk.inj (Except.ok.inj h)
    exact ⟨List.prefix_rfl, hs⟩
  | cons key keys ih =>
    obtain ⟨e, direction⟩ := key
    obtain ⟨t, p₁, ht, h⟩ := addOrder_cons_eq_ok_iff.mp h
    obtain ⟨hp₁, hadmitted⟩ := conditionTerm_isAdmitted ht
    have hs₁ := hs.mono hp₁
    have hs₂ : Statement.IsAdmitted p₁ { s with order := s.order ++ [(t, direction)] } :=
      ⟨hs₁.on, hs₁.filter,
        List.forall_mem_append.mpr ⟨hs₁.order, List.forall_mem_singleton.mpr hadmitted⟩⟩
    obtain ⟨hp', hs'⟩ := ih hs₂ h
    exact ⟨hp₁.trans hp', hs'⟩

end Statement

/-! ### Queries -/

namespace QuerySpec

variable {q : QuerySpec} {mapping : Expr}

theorem tables_isAdmitted (q : QuerySpec) (p : Pool) : q.tables.IsAdmitted p where
  on j hj t ht := by
    obtain ⟨j', -, rfl⟩ := List.mem_map.mp hj
    cases ht
  filter := nofun
  order := nofun

theorem statement_isAdmitted {s : Statement} {p p' : Pool}
    (h : q.statement naming p = .ok (s, p')) : s.IsAdmitted p' := by
  obtain ⟨⟨s₁, p₁⟩, h₁, h⟩ := Result.bind_eq_ok_iff.mp h
  obtain ⟨⟨s₂, p₂⟩, h₂, h₃⟩ := Result.bind_eq_ok_iff.mp h
  obtain ⟨-, hs₁⟩ := Statement.addConditions_isAdmitted (q.tables_isAdmitted p) h₁
  obtain ⟨-, hs₂⟩ := Statement.addFilter_isAdmitted hs₁ h₂
  exact (Statement.addOrder_isAdmitted hs₂ h₃).2

theorem stages_isAdmitted {st : Stages} (h : q.stages naming mapping = .ok st) :
    st.statement.IsAdmitted st.pool ∧ ∀ o ∈ st.outputs, Term.IsAdmitted st.pool false o.value := by
  obtain ⟨p, bindings, hs, hcompiled, houtputs⟩ := stages_eq_ok_iff.mp h
  have hensures : Ensures (fun _ => True) _ _ (compileMapping st.statement mapping) :=
    compileMapping_ensures st.statement (c := { pool := p }) Grounded.nil fun _ _ => trivial
  obtain ⟨hgrows, hregistered⟩ := hensures.yields hcompiled
  refine ⟨(statement_isAdmitted hs).mono hgrows.slots, fun o ho => ?_⟩
  obtain ⟨o', ho', ht⟩ := exists_of_mem_resolveOutputs houtputs ho
  exact (hregistered o' ho').isAdmitted ht

/-- **Binding is all that can fail before the statement is handed to the database.** Every
placeholder for one value, in the statement or in the subject of a list test, however deep, stands
for a slot that is not marked as a list, and every list test is in a slot that is. So the statement
is rendered whenever the parameters are bound, and rendering fails just if binding does, in the same
way. -/
theorem render_eq_error_iff {settings : Settings} {query : Query} {n n' : Nat}
    (h : (q.compile settings mapping).run n = .ok (query, n')) :
    (∀ use ∈ query.sql.uses, query.pool.Marks use.1 use.2) ∧
      (∀ arguments bound, query.pool.bind arguments = .ok bound →
        ∃ r, query.sql.render query.engine.dialect bound = .ok r) ∧
      ∀ arguments e, query.render arguments = .error e ↔ query.pool.bind arguments = .error e := by
  obtain ⟨st, assembled, hst, hassembled, rfl⟩ := compile_run_eq_ok_iff.mp h
  obtain ⟨hs, houtputs⟩ := stages_isAdmitted hst
  have hmarked := Assembler.isMarked_of_assemble (a := st.assembler settings.engine) hs houtputs
    hassembled
  have hrender arguments bound (hbind : st.pool.bind arguments = .ok bound) :
      ∃ r, assembled.sql.render settings.engine.dialect bound = .ok r :=
    hmarked.exists_render hbind settings.engine.dialect
  refine ⟨hmarked, hrender, fun arguments e => ?_⟩
  unfold Query.render
  rw [Result.bind_eq_error_iff]
  refine or_iff_left ?_
  rintro ⟨bound, hbind, herror⟩
  obtain ⟨r, hr⟩ := hrender arguments bound hbind
  rw [hr] at herror
  cases herror

/-- The people of whom it is asked whether having one of the given numbers is one of the given
answers. -/
def peopleByAnswer : QuerySpec :=
  { people with
    filters := [.isIn (.isIn (shapeField "person" "id") (.member .args "ids"))
      (.member .args "answers")] }

/-- One list test is the subject of the other. The statement is rendered for two lists; without
arguments binding fails, and so does rendering. -/
theorem render_eq_error_iff_peopleByAnswer :
    ∃ query n', (peopleByAnswer.compile {} (shapeField "person" "name")).run 0 = .ok (query, n') ∧
      query.sql.uses = [(0, true), (1, true)] ∧
      (∀ use ∈ query.sql.uses, query.pool.Marks use.1 use.2) ∧
      (∃ r, query.render (.object [("ids", .array [.integer 1]), ("answers", .array [])]) = .ok r) ∧
      ∃ e, query.pool.bind .null = .error e ∧ query.render .null = .error e := by
  have hrun : ((peopleByAnswer.compile {} (shapeField "person" "name")).run 0).any (fun x =>
      x.1.sql.uses == [(0, true), (1, true)] &&
      (x.1.render (.object [("ids", .array [.integer 1]), ("answers", .array [])])).any
        (fun _ => true) &&
      !(x.1.pool.bind .null).any fun _ => true) = true := by
    decide +kernel
  obtain ⟨⟨query, n'⟩, hquery, hchecks⟩ := Result.any_eq_true_iff.mp hrun
  simp only [Bool.and_eq_true, beq_iff_eq] at hchecks
  obtain ⟨⟨huses, hrender⟩, hbind⟩ := hchecks
  obtain ⟨r, hr, -⟩ := Result.any_eq_true_iff.mp hrender
  obtain ⟨hmarked, -, hiff⟩ := render_eq_error_iff hquery
  refine ⟨query, n', hquery, huses, hmarked, ⟨r, hr⟩, ?_⟩
  cases herror : query.pool.bind .null with
  | ok bound => rw [herror] at hbind; cases hbind
  | error e => exact ⟨e, rfl, (hiff .null e).mpr herror⟩

end QuerySpec

end NestedQuery
