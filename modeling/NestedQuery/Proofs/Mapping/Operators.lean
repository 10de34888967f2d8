import NestedQuery.Proofs.Mapping.Steps

/-!
# What operators and choices compile to

An operator, a function, a membership test, a conditional or a case that is not one parameter is put
together of its operands. One lemma for each of them says in which order the operands are compiled,
and what is made of them; what holds of the results of the operands is carried over to the whole by
these lemmas, without a look at the compiler.
-/

namespace NestedQuery

open Compile

/-! ### Operators -/

variable {s : Statement} {scope : Scope} {c c' : Collected} {r : Compiled}
  {e e' set test ifTrue ifFalse subject otherwise whole : Expr} {branches : List (Expr × Expr)}

/-- What reads no row is one parameter, whatever kind of expression it is. -/
theorem compile_eq_compileParameter (h : e.isParameter = true) :
    compile s scope e = compileParameter e := by
  unfold compile
  rw [if_pos h]

theorem compile_not_yields (hparam : ¬ (Expr.unary .not e).isParameter = true)
    (h : Yields (compile s scope (.unary .not e)) c r c') :
    ∃ o, Yields (operandOf s (.unary .not e) e (compile s scope e)) c o c' ∧
      r = .ofValue (.wrap .not o.value) .bool o.tables := by
  unfold compile at h
  rw [if_neg hparam] at h
  obtain ⟨o, c₁, ho, h⟩ := yields_bind_iff.mp h
  obtain ⟨rfl, rfl⟩ := yields_pure_iff.mp h
  exact ⟨o, ho, rfl⟩

theorem compile_negate_yields (hparam : ¬ (Expr.unary .negate e).isParameter = true)
    (h : Yields (compile s scope (.unary .negate e)) c r c') :
    ∃ o, Yields (operandOf s (.unary .negate e) e (compile s scope e)) c o c' ∧
      r = .ofValue (.wrap .negate o.value) o.type o.tables := by
  unfold compile at h
  rw [if_neg hparam] at h
  obtain ⟨o, c₁, ho, h⟩ := yields_bind_iff.mp h
  obtain ⟨rfl, rfl⟩ := yields_pure_iff.mp h
  exact ⟨o, ho, rfl⟩

/-- The left operand is compiled first. Membership tests and commas have rules of their own. -/
theorem compile_binary_yields {op : BinaryOp} (hin : op ≠ .isIn) (hcomma : op ≠ .comma)
    (hparam : ¬ (Expr.binary op e e').isParameter = true)
    (h : Yields (compile s scope (.binary op e e')) c r c') :
    ∃ left c₁ right, Yields (operandOf s (.binary op e e') e (compile s scope e)) c left c₁ ∧
      Yields (operandOf s (.binary op e e') e' (compile s scope e')) c₁ right c' ∧
      r = .ofValue (.binary op left.value right.value)
        (if op.isBoolean then .bool else left.type.widen right.type)
        (left.tables ++ right.tables) := by
  unfold compile at h
  rw [if_neg hparam] at h
  cases op with
  | isIn => exact absurd rfl hin
  | comma => exact absurd rfl hcomma
  | _ =>
    obtain ⟨left, c₁, hleft, h⟩ := yields_bind_iff.mp h
    obtain ⟨right, c₂, hright, h⟩ := yields_bind_iff.mp h
    obtain ⟨rfl, rfl⟩ := yields_pure_iff.mp h
    exact ⟨left, c₁, right, hleft, hright, rfl⟩

theorem compile_apply_yields {function : Function}
    (hparam : ¬ (Expr.apply function e).isParameter = true)
    (h : Yields (compile s scope (.apply function e)) c r c') :
    ∃ o, Yields (operandOf s (.apply function e) e (compile s scope e)) c o c' ∧
      r = compileFunction function o := by
  unfold compile at h
  rw [if_neg hparam] at h
  obtain ⟨o, c₁, ho, h⟩ := yields_bind_iff.mp h
  obtain ⟨rfl, rfl⟩ := yields_pure_iff.mp h
  exact ⟨o, ho, rfl⟩

theorem compile_isIn_yields (hparam : ¬ (Expr.isIn e set).isParameter = true)
    (h : Yields (compile s scope (.isIn e set)) c r c') :
    ∃ o c₁, Yields (operandOf s (.isIn e set) e (compile s scope e)) c o c₁ ∧
      Yields (compileMembership o set) c₁ r c' := by
  unfold compile at h
  rw [if_neg hparam] at h
  exact yields_bind_iff.mp h

theorem compile_contains_yields (hparam : ¬ (Expr.contains set e).isParameter = true)
    (h : Yields (compile s scope (.contains set e)) c r c') :
    ∃ o c₁, Yields (operandOf s (.contains set e) e (compile s scope e)) c o c₁ ∧
      Yields (compileMembership o set) c₁ r c' := by
  unfold compile at h
  rw [if_neg hparam] at h
  exact yields_bind_iff.mp h

/-! ### Choices -/

/-- An alternative is the test and value of a further conditional in front of its own alternative,
or one operand. -/
theorem alternative_yields {bs : CompiledBranches} {o : Operand}
    (h : Yields (alternative s whole e (compile s scope e) (compileElse s scope whole e)) c (bs, o)
      c') :
    (∃ test ifTrue ifFalse t c₁ v c₂ further, e = .conditional test ifTrue ifFalse ∧
      Yields (operandOf s whole test (compile s scope test)) c t c₁ ∧
      Yields (operandOf s whole ifTrue (compile s scope ifTrue)) c₁ v c₂ ∧
      Yields (alternative s whole ifFalse (compile s scope ifFalse)
        (compileElse s scope whole ifFalse)) c₂ (further, o) c' ∧ bs = further.cons t v) ∨
    (bs = {} ∧ Yields (operandOf s whole e (compile s scope e)) c o c') := by
  cases e with
  | conditional test ifTrue ifFalse =>
    obtain ⟨t, c₁, ht, h⟩ := yields_bind_iff.mp h
    obtain ⟨v, c₂, hv, h⟩ := yields_bind_iff.mp h
    obtain ⟨⟨further, o'⟩, c₃, hfurther, h⟩ := yields_bind_iff.mp h
    obtain ⟨heq, rfl⟩ := yields_pure_iff.mp h
    obtain ⟨rfl, rfl⟩ := Prod.mk.inj heq
    exact .inl ⟨test, ifTrue, ifFalse, t, c₁, v, c₂, further, rfl, ht, hv, hfurther, rfl⟩
  | _ =>
    obtain ⟨o', c₁, ho, h⟩ := yields_bind_iff.mp h
    obtain ⟨heq, rfl⟩ := yields_pure_iff.mp h
    obtain ⟨rfl, rfl⟩ := Prod.mk.inj heq
    exact .inr ⟨rfl, ho⟩

/-- A conditional is a case with its test in front of the tests of its alternative. -/
theorem compile_conditional_yields
    (hparam : ¬ (Expr.conditional test ifTrue ifFalse).isParameter = true)
    (h : Yields (compile s scope (.conditional test ifTrue ifFalse)) c r c') :
    ∃ whole t c₁ v c₂ bs o, Yields (operandOf s whole test (compile s scope test)) c t c₁ ∧
      Yields (operandOf s whole ifTrue (compile s scope ifTrue)) c₁ v c₂ ∧
      Yields (alternative s whole ifFalse (compile s scope ifFalse)
        (compileElse s scope whole ifFalse)) c₂ (bs, o) c' ∧
      r = .ofValue (.cases (bs.cons t v).branches o.value) v.type
        ((bs.cons t v).tables ++ o.tables) := by
  unfold compile at h
  rw [if_neg hparam] at h
  obtain ⟨t, c₁, ht, h⟩ := yields_bind_iff.mp h
  obtain ⟨v, c₂, hv, h⟩ := yields_bind_iff.mp h
  obtain ⟨⟨bs, o⟩, c₃, hbs, h⟩ := yields_bind_iff.mp h
  obtain ⟨rfl, rfl⟩ := yields_pure_iff.mp h
  exact ⟨_, t, c₁, v, c₂, bs, o, ht, hv, hbs, rfl⟩

theorem compileBranches_cons_yields {value : Expr} {bs : CompiledBranches}
    (h : Yields (compileBranches s scope whole ((test, value) :: branches)) c bs c') :
    ∃ t c₁ v c₂ rest, Yields (operandOf s whole test (compile s scope test)) c t c₁ ∧
      Yields (operandOf s whole value (compile s scope value)) c₁ v c₂ ∧
      Yields (compileBranches s scope whole branches) c₂ rest c' ∧ bs = rest.cons t v := by
  obtain ⟨t, c₁, ht, h⟩ := yields_bind_iff.mp h
  obtain ⟨v, c₂, hv, h⟩ := yields_bind_iff.mp h
  obtain ⟨rest, c₃, hrest, h⟩ := yields_bind_iff.mp h
  obtain ⟨rfl, rfl⟩ := yields_pure_iff.mp h
  exact ⟨t, c₁, v, c₂, rest, ht, hv, hrest, rfl⟩

theorem compile_cases_yields (hparam : ¬ (Expr.cases branches otherwise).isParameter = true)
    (h : Yields (compile s scope (.cases branches otherwise)) c r c') :
    ∃ whole bs c₁ o, Yields (compileBranches s scope whole branches) c bs c₁ ∧
      Yields (operandOf s whole otherwise (compile s scope otherwise)) c₁ o c' ∧
      r = .ofValue (.cases bs.branches o.value) (bs.type?.getD o.type)
        (bs.tables ++ o.tables) := by
  unfold compile at h
  rw [if_neg hparam] at h
  obtain ⟨bs, c₁, hbs, h⟩ := yields_bind_iff.mp h
  obtain ⟨o, c₂, ho, h⟩ := yields_bind_iff.mp h
  obtain ⟨rfl, rfl⟩ := yields_pure_iff.mp h
  exact ⟨_, bs, c₁, o, hbs, ho, rfl⟩

theorem compile_casesOf_yields
    (hparam : ¬ (Expr.casesOf subject branches otherwise).isParameter = true)
    (h : Yields (compile s scope (.casesOf subject branches otherwise)) c r c') :
    ∃ whole k c₁ bs c₂ o, Yields (operandOf s whole subject (compile s scope subject)) c k c₁ ∧
      Yields (compileBranches s scope whole branches) c₁ bs c₂ ∧
      Yields (operandOf s whole otherwise (compile s scope otherwise)) c₂ o c' ∧
      r = .ofValue (.casesOf k.value bs.branches o.value) (bs.type?.getD o.type)
        (k.tables ++ bs.tables ++ o.tables) := by
  unfold compile at h
  rw [if_neg hparam] at h
  obtain ⟨k, c₁, hk, h⟩ := yields_bind_iff.mp h
  obtain ⟨bs, c₂, hbs, h⟩ := yields_bind_iff.mp h
  obtain ⟨o, c₃, ho, h⟩ := yields_bind_iff.mp h
  obtain ⟨rfl, rfl⟩ := yields_pure_iff.mp h
  exact ⟨_, k, c₁, bs, c₂, o, hk, hbs, ho, rfl⟩

end NestedQuery
