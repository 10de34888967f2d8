import NestedQuery.Proofs.Mapping.Preservation

/-!
# Scalar expressions range over no table

What a scalar expression compiles to is one value, and no table is mapped for it
(`Expr.IsScalar.isValue`). So a mapping that is put together of such values has elements of the
primary table only.
-/

namespace NestedQuery

open Compile

variable {s : Statement} {e e' test ifTrue ifFalse subject otherwise value : Expr}
  {branches : List (Expr × Expr)}

/-- Whatever the expression compiles to, no table is mapped for it. -/
def IsTableless (s : Statement) (e : Expr) : Prop :=
  ∀ scope c r c', Yields (compile s scope e) c r c' → r.tables = []

/-- As the alternative of a conditional, the expression has no table mapped for it either. -/
def IsTablelessElse (s : Statement) (e : Expr) : Prop :=
  ∀ scope whole c bs o c',
    Yields (alternative s whole e (compile s scope e) (compileElse s scope whole e)) c (bs, o) c' →
      bs.tables = [] ∧ o.tables = []

theorem isTableless_of_not_isParameter
    (h : ∀ scope c r c', ¬ e.isParameter = true → Yields (compile s scope e) c r c' →
      r.tables = []) : IsTableless s e := by
  intro scope c r c' hyields
  by_cases hparam : e.isParameter = true
  · rw [compile_eq_compileParameter hparam] at hyields
    obtain ⟨id, type, -, rfl⟩ := compileParameter_yields hyields
    rfl
  · exact h scope c r c' hparam hyields

namespace IsTableless

theorem operand (he : IsTableless s e) {scope : Scope} {parent : Expr} {o : Operand}
    {c c' : Collected} (h : Yields (operandOf s parent e (compile s scope e)) c o c') :
    o.tables = [] := by
  obtain ⟨r, hr, htables, -⟩ := operandOf_yields h
  exact htables.trans (he _ _ _ _ hr)

theorem ofBranches (htests : ∀ b ∈ branches, IsTableless s b.1)
    (hvalues : ∀ b ∈ branches, IsTableless s b.2) {scope : Scope} {whole : Expr}
    {c c' : Collected} {r : CompiledBranches}
    (h : Yields (compileBranches s scope whole branches) c r c') : r.tables = [] := by
  induction branches generalizing c c' r with
  | nil =>
    obtain ⟨rfl, -⟩ := yields_pure_iff.mp h
    rfl
  | cons b bs ih =>
    obtain ⟨t, c₁, v, c₂, rest, ht, hv, hrest, rfl⟩ := compileBranches_cons_yields h
    have htest := (htests b (List.mem_cons_self ..)).operand ht
    have hvalue := (hvalues b (List.mem_cons_self ..)).operand hv
    have hrest := ih (fun b hb => htests b (List.mem_cons_of_mem _ hb))
      (fun b hb => hvalues b (List.mem_cons_of_mem _ hb)) hrest
    rw [CompiledBranches.cons, htest, hvalue, hrest]
    rfl

/-- A test and a value in front of an alternative. -/
theorem choice (htest : IsTableless s test) (hifTrue : IsTableless s ifTrue)
    (hifFalse : IsTablelessElse s ifFalse) {scope : Scope} {whole : Expr}
    {c c₁ c₂ c₃ : Collected} {t v o : Operand} {bs : CompiledBranches}
    (ht : Yields (operandOf s whole test (compile s scope test)) c t c₁)
    (hv : Yields (operandOf s whole ifTrue (compile s scope ifTrue)) c₁ v c₂)
    (hbs : Yields (alternative s whole ifFalse (compile s scope ifFalse)
      (compileElse s scope whole ifFalse)) c₂ (bs, o) c₃) :
    (bs.cons t v).tables = [] ∧ o.tables = [] := by
  obtain ⟨hbs, ho⟩ := hifFalse _ _ _ _ _ _ hbs
  rw [CompiledBranches.cons, htest.operand ht, hifTrue.operand hv, hbs]
  exact ⟨rfl, ho⟩

theorem alternative (he : IsTableless s e)
    (hcond : ∀ {test ifTrue ifFalse}, e = .conditional test ifTrue ifFalse →
      IsTableless s test ∧ IsTableless s ifTrue ∧ IsTablelessElse s ifFalse) :
    IsTablelessElse s e := by
  intro scope whole c bs o c' h
  obtain ⟨test, ifTrue, ifFalse, t, c₁, v, c₂, further, rfl, ht, hv, hbs, rfl⟩ | ⟨rfl, ho⟩ :=
    alternative_yields h
  · obtain ⟨htest, hifTrue, hifFalse⟩ := hcond rfl
    exact htest.choice hifTrue hifFalse ht hv hbs
  · exact ⟨rfl, he.operand ho⟩

theorem column {path : List String} (hpath : e.rowPath? = some path) : IsTableless s e := by
  intro scope c r c' h
  obtain ⟨-, type, rfl⟩ := compile_yields_chain hpath h
  rfl

theorem unary (op : UnaryOp) (he : IsTableless s e) : IsTableless s (.unary op e) := by
  refine isTableless_of_not_isParameter fun scope c r c' hparam h => ?_
  cases op with
  | not =>
    obtain ⟨o, ho, rfl⟩ := compile_not_yields hparam h
    exact he.operand ho
  | negate =>
    obtain ⟨o, ho, rfl⟩ := compile_negate_yields hparam h
    exact he.operand ho

theorem binary {op : BinaryOp} (hin : op ≠ .isIn) (hcomma : op ≠ .comma) (he : IsTableless s e)
    (he' : IsTableless s e') : IsTableless s (.binary op e e') := by
  refine isTableless_of_not_isParameter fun scope c r c' hparam h => ?_
  obtain ⟨left, c₁, right, hl, hr, rfl⟩ := compile_binary_yields hin hcomma hparam h
  exact List.append_eq_nil_iff.mpr ⟨he.operand hl, he'.operand hr⟩

theorem apply (function : Function) (he : IsTableless s e) :
    IsTableless s (.apply function e) := by
  refine isTableless_of_not_isParameter fun scope c r c' hparam h => ?_
  obtain ⟨o, ho, rfl⟩ := compile_apply_yields hparam h
  exact he.operand ho

theorem conditional (htest : IsTableless s test) (hifTrue : IsTableless s ifTrue)
    (hifFalse : IsTablelessElse s ifFalse) :
    IsTableless s (.conditional test ifTrue ifFalse) := by
  refine isTableless_of_not_isParameter fun scope c r c' hparam h => ?_
  obtain ⟨whole, t, c₁, v, c₂, bs, o, ht, hv, hbs, rfl⟩ := compile_conditional_yields hparam h
  exact List.append_eq_nil_iff.mpr (htest.choice hifTrue hifFalse ht hv hbs)

theorem cases (htests : ∀ b ∈ branches, IsTableless s b.1)
    (hvalues : ∀ b ∈ branches, IsTableless s b.2) (ho : IsTableless s otherwise) :
    IsTableless s (.cases branches otherwise) := by
  refine isTableless_of_not_isParameter fun scope c r c' hparam h => ?_
  obtain ⟨whole, bs, c₁, o, hbs, hoperand, rfl⟩ := compile_cases_yields hparam h
  exact List.append_eq_nil_iff.mpr ⟨IsTableless.ofBranches htests hvalues hbs, ho.operand hoperand⟩

theorem casesOf (hk : IsTableless s subject) (htests : ∀ b ∈ branches, IsTableless s b.1)
    (hvalues : ∀ b ∈ branches, IsTableless s b.2) (ho : IsTableless s otherwise) :
    IsTableless s (.casesOf subject branches otherwise) := by
  refine isTableless_of_not_isParameter fun scope c r c' hparam h => ?_
  obtain ⟨whole, k, c₁, bs, c₂, o, hsubject, hbs, hoperand, rfl⟩ :=
    compile_casesOf_yields hparam h
  exact List.append_eq_nil_iff.mpr ⟨List.append_eq_nil_iff.mpr
    ⟨hk.operand hsubject, IsTableless.ofBranches htests hvalues hbs⟩, ho.operand hoperand⟩

theorem isIn (set : Expr) (hvalue : IsTableless s value) : IsTableless s (.isIn value set) := by
  refine isTableless_of_not_isParameter fun scope c r c' hparam h => ?_
  obtain ⟨o, c₁, ho, h⟩ := compile_isIn_yields hparam h
  obtain ⟨list, -, rfl⟩ := compileMembership_yields h
  exact hvalue.operand ho

theorem contains (set : Expr) (hvalue : IsTableless s value) :
    IsTableless s (.contains set value) := by
  refine isTableless_of_not_isParameter fun scope c r c' hparam h => ?_
  obtain ⟨o, c₁, ho, h⟩ := compile_contains_yields hparam h
  obtain ⟨list, -, rfl⟩ := compileMembership_yields h
  exact hvalue.operand ho

end IsTableless

/-- **Scalar expressions have no table mapped for them**, also as alternatives. -/
theorem Expr.IsScalar.isTableless (h : e.IsScalar s) : IsTableless s e ∧ IsTablelessElse s e := by
  induction h with
  | constant v =>
    have ht : IsTableless s (.constant v) :=
      isTableless_of_not_isParameter fun _ _ _ _ hparam _ => absurd rfl hparam
    exact ⟨ht, ht.alternative nofun⟩
  | argument he =>
    have ht := isTableless_of_not_isParameter (s := s) fun _ _ _ _ hparam _ =>
      absurd (isParameter_of_isArgument he) hparam
    exact ⟨ht, ht.alternative fun heq => by subst heq; exact absurd he nofun⟩
  | column hpath _ =>
    have ht := IsTableless.column (s := s) hpath
    exact ⟨ht, ht.alternative fun heq => by subst heq; exact absurd hpath nofun⟩
  | unary op _ ih =>
    have ht := ih.1.unary op
    exact ⟨ht, ht.alternative nofun⟩
  | binary hin hcomma _ _ ih ih' =>
    have ht := ih.1.binary hin hcomma ih'.1
    exact ⟨ht, ht.alternative nofun⟩
  | apply function _ ih =>
    have ht := ih.1.apply function
    exact ⟨ht, ht.alternative nofun⟩
  | conditional _ _ _ ihTest ihTrue ihFalse =>
    have ht := ihTest.1.conditional ihTrue.1 ihFalse.2
    refine ⟨ht, ht.alternative fun heq => ?_⟩
    cases heq
    exact ⟨ihTest.1, ihTrue.1, ihFalse.2⟩
  | cases _ _ _ ihTests ihValues ih =>
    have ht := IsTableless.cases (fun b hb => (ihTests b hb).1) (fun b hb => (ihValues b hb).1) ih.1
    exact ⟨ht, ht.alternative nofun⟩
  | casesOf _ _ _ _ ihSubject ihTests ihValues ih =>
    have ht := IsTableless.casesOf ihSubject.1 (fun b hb => (ihTests b hb).1)
      (fun b hb => (ihValues b hb).1) ih.1
    exact ⟨ht, ht.alternative nofun⟩
  | isIn set _ ih =>
    have ht := ih.1.isIn set
    exact ⟨ht, ht.alternative nofun⟩
  | contains set _ ih =>
    have ht := ih.1.contains set
    exact ⟨ht, ht.alternative nofun⟩

/-! ### Values of the primary table -/

/-- A mapping that is one value of each row: nothing but that value is selected, and no table is
mapped for it. -/
def Expr.IsValue (s : Statement) (e : Expr) : Prop :=
  ∀ c r c', Yields (compileMapping s e) c r c' → ∃ v type, r = .ofValue v type

theorem Compiled.eq_ofValue_of_value? {r : Compiled} {o : Output Symbol} (ho : r.value? = some o)
    (htables : r.tables = []) : r = .ofValue o.value o.type := by
  obtain ⟨houtputs, htarget⟩ := value?_eq_some_iff.mp ho
  obtain ⟨outputs, tables⟩ := r
  obtain rfl : tables = [] := htables
  obtain rfl : outputs = [o] := houtputs
  rw [ofValue, ← htarget]

theorem Expr.IsScalar.isValue (he : e.IsScalar s) : e.IsValue s := by
  intro c r c' h
  obtain ⟨r', c₁, hr, h⟩ := yields_bind_iff.mp h
  have hpreserved := he.preserves.1 _ _ _ _ hr
  -- The result is no whole table or shape, so there is nothing to expand.
  obtain ⟨w?, c₂, hw, h⟩ := yields_bind_iff.mp h
  obtain rfl := whole?_yields_none hw hpreserved.chain
  obtain ⟨rfl, -⟩ := yields_pure_iff.mp h
  obtain ⟨o, ho, -⟩ := hpreserved.means
  exact ⟨o.value, o.type, Compiled.eq_ofValue_of_value? ho (he.isTableless.1 _ _ _ _ hr)⟩

end NestedQuery
