import NestedQuery.Proofs.Query.Replacement
import NestedQuery.Proofs.Select.Sources

/-!
# Spellings of membership tests

Whether a value is in a set can be asked in three ways: `isIn`, `contains` and the operator
`BinaryOp.isIn`. A test that reaches row data is compiled to the same in all of them. A test that
does not is evaluated, and evaluation has no rule for the operator: it finds null if an operand is,
and nothing otherwise (`Expr.evaluate_operator_eq_ok_iff`). So `isIn` and `contains` may stand for
each other everywhere in a query, and the operator for them where the test reads the row
(`QuerySpec.compile_respelled`).
-/

namespace NestedQuery

open Compile
open NestedQuery.Expr (Replacement Replaces ReplacesValue SameValues KeepsRow)

/-! ### Values of the tests -/

/-- No values have a sum, or any other result, by the operator of a membership test. -/
theorem Value.arithmetic?_isIn (x y : Value) : arithmetic? .isIn x y = none := by
  cases x <;> cases y <;> rfl

/-- So only a null operand gives it a value. -/
theorem Value.binary?_isIn (x y : Value) :
    binary? .isIn x y = if x.isNull || y.isNull then some .null else none := by
  unfold binary?
  split
  · rfl
  · exact arithmetic?_isIn x y

namespace Expr

variable {v set e e' : Expr} {arguments : Document} {w : Value}

/-- `isIn` has a value if the set is a list: whether the value is among its items. -/
theorem evaluate_isIn_eq_ok_iff :
    (isIn v set).evaluate arguments = .ok w ↔ ∃ x items, v.evaluate arguments = .ok x ∧
      set.evaluate arguments = .ok (.list items) ∧ w = .bool (x.isAmong items) := by
  rw [evaluate, Result.bind_eq_ok_iff]
  constructor
  · rintro ⟨x, hx, h⟩
    obtain ⟨y, hy, h⟩ := Result.bind_eq_ok_iff.mp h
    cases y with
    | list items => exact ⟨x, items, hx, hy, (Except.ok.inj h).symm⟩
    | _ => cases h
  · rintro ⟨x, items, hx, hset, rfl⟩
    exact ⟨x, hx, Result.bind_eq_ok_iff.mpr ⟨_, hset, rfl⟩⟩

/-- The operator has a value if an operand is null, and it is null then. -/
theorem evaluate_operator_eq_ok_iff :
    (binary .isIn v set).evaluate arguments = .ok w ↔ ∃ x y, v.evaluate arguments = .ok x ∧
      set.evaluate arguments = .ok y ∧ (x = .null ∨ y = .null) ∧ w = .null := by
  have hnull : ∀ x : Value, x.isNull = true ↔ x = .null := by
    intro x
    cases x <;> simp [Value.isNull]
  have hvalue : ∀ x y, (binary .isIn v set).orOperandTypes (Value.binary? .isIn x y) = .ok w ↔
      (x = .null ∨ y = .null) ∧ w = .null := by
    intro x y
    rw [Value.binary?_isIn, ← hnull, ← hnull, ← Bool.or_eq_true]
    split
    · next h => exact ⟨fun hw => ⟨h, (Except.ok.inj hw).symm⟩, fun hw => congrArg _ hw.2.symm⟩
    · next h => exact ⟨nofun, fun hw => absurd hw.1 h⟩
  simp only [evaluate, Result.bind_eq_ok_iff, hvalue]
  constructor
  · rintro ⟨x, hx, y, hy, h⟩
    exact ⟨x, y, hx, hy, h⟩
  · rintro ⟨x, y, hx, hy, h⟩
    exact ⟨x, hx, y, hy, h⟩

/-- The operator is `isIn` only where neither of them has a value. -/
theorem toOption_evaluate_operator_eq_iff :
    ((binary .isIn v set).evaluate arguments).toOption =
        ((isIn v set).evaluate arguments).toOption ↔
      ∀ w, (isIn v set).evaluate arguments ≠ .ok w ∧
        (binary .isIn v set).evaluate arguments ≠ .ok w := by
  constructor
  · intro h w
    have hsame : (binary .isIn v set).evaluate arguments = .ok w ↔
        (isIn v set).evaluate arguments = .ok w := by
      rw [← Result.toOption_eq_some_iff, h, Result.toOption_eq_some_iff]
    have hnever : (isIn v set).evaluate arguments ≠ .ok w := by
      intro hw
      obtain ⟨x, items, -, -, hbool⟩ := evaluate_isIn_eq_ok_iff.mp hw
      obtain ⟨x', y', -, -, -, hnull⟩ := evaluate_operator_eq_ok_iff.mp (hsame.mpr hw)
      cases hbool.symm.trans hnull
    exact ⟨hnever, fun hw => hnever (hsame.mp hw)⟩
  · intro h
    ext w
    rw [Result.toOption_eq_some_iff, Result.toOption_eq_some_iff]
    exact ⟨fun hw => absurd hw (h w).2, fun hw => absurd hw (h w).1⟩

/-- The operator and `isIn` agree for all arguments if neither ever has a value: the set is never a
list, and no operand is null. -/
theorem sameValues_operator_iff :
    SameValues (isIn v set) (binary .isIn v set) ↔ ∀ arguments x y,
      v.evaluate arguments = .ok x → set.evaluate arguments = .ok y →
        (∀ items, y ≠ .list items) ∧ x ≠ .null ∧ y ≠ .null := by
  constructor
  · intro h arguments x y hx hy
    have hnever := toOption_evaluate_operator_eq_iff.mp (h.evaluate arguments)
    have hoperator : ¬ (x = .null ∨ y = .null) := fun hnull =>
      (hnever .null).2 (evaluate_operator_eq_ok_iff.mpr ⟨x, y, hx, hy, hnull, rfl⟩)
    refine ⟨?_, not_or.mp hoperator⟩
    rintro items rfl
    exact (hnever _).1 (evaluate_isIn_eq_ok_iff.mpr ⟨x, items, hx, hy, rfl⟩)
  · intro h
    refine ⟨rfl, fun arguments => ?_, fun _ => rfl⟩
    refine toOption_evaluate_operator_eq_iff.mpr fun w => ⟨fun hw => ?_, fun hw => ?_⟩
    · obtain ⟨x, items, hx, hset, -⟩ := evaluate_isIn_eq_ok_iff.mp hw
      exact (h arguments x _ hx hset).1 items rfl
    · obtain ⟨x, y, hx, hy, hnull, -⟩ := evaluate_operator_eq_ok_iff.mp hw
      obtain ⟨-, hx, hy⟩ := h arguments x y hx hy
      exact hnull.elim hx hy

/-! ### Spellings -/

theorem SameValues.symm (h : SameValues e e') : SameValues e' e :=
  ⟨h.readsArgs.symm, fun arguments => (h.evaluate arguments).symm,
    fun arguments => (h.navigate arguments).symm⟩

/-- Another spelling of the same membership test. The operator is one for tests that read the row,
and for those without a value. -/
inductive Respells : Expr → Expr → Prop
  | contains (v set : Expr) : Respells (isIn v set) (contains set v)
  | operator {v set : Expr} :
    (isIn v set).readsRow = true ∨ SameValues (isIn v set) (binary .isIn v set) →
      Respells (isIn v set) (binary .isIn v set)

/-- Tests may be replaced by another spelling in any place. -/
def spellings : Replacement where
  anywhere e e' := Respells e e' ∨ Respells e' e

namespace Respells

theorem readsRow (h : Respells e e') : e'.readsRow = e.readsRow := by
  cases h <;> rfl

theorem sameValues (h : Respells e e') (hfree : e.readsRow = false) : SameValues e e' := by
  cases h with
  | contains v set =>
    refine ⟨rfl, fun arguments => ?_, fun _ => rfl⟩
    simp only [evaluate, Result.toOption_bind, toOption_membership]
  | operator h => exact h.resolve_left fun hrow => Bool.false_ne_true (hfree.symm.trans hrow)

/-- A test is compiled to one parameter unless it reads the row. -/
theorem isParameter_eq (h : Respells e e') :
    e.isParameter = !e.readsRow ∧ e'.isParameter = !e'.readsRow := by
  cases h <;> exact ⟨rfl, rfl⟩

/-- Tests that read the row are compiled to the same. -/
theorem compile_sameYields (h : Respells e e') (hrow : e.readsRow = true) (s : Statement)
    (scope : Scope) : SameYields (compile s scope e) (compile s scope e') := by
  have hparam : ¬ e.isParameter = true := by simp [h.isParameter_eq.1, hrow]
  have hparam' : ¬ e'.isParameter = true := by simp [h.isParameter_eq.2, h.readsRow, hrow]
  unfold compile
  rw [if_neg hparam, if_neg hparam']
  cases h with
  | contains v set => exact (operandOf_sameYields (.refl _) _ _ _ _).bind fun _ => .refl _
  | operator h => exact (operandOf_sameYields (.refl _) _ _ _ _).bind fun _ => .refl _

theorem isOpened (h : Respells e e') : e.isOpened = false ∧ e'.isOpened = false := by
  cases h <;> exact ⟨rfl, rfl⟩

end Respells

theorem keepsRow_spellings : KeepsRow spellings where
  anywhere h := h.elim Respells.readsRow fun h => h.readsRow.symm
  source := False.elim
  value := False.elim

theorem sameValues_spellings (h : spellings.anywhere e e') (hfree : e.readsRow = false) :
    SameValues e e' := by
  rcases h with h | h
  · exact h.sameValues hfree
  · exact (h.sameValues (h.readsRow.symm.trans hfree)).symm

/-- Spellings agree over any statement: both are compiled to the same, or to a parameter each. -/
theorem compile_agrees_spellings (h : spellings.anywhere e e') (s : Statement) (scope : Scope) :
    Agrees SameValues True (compile s scope e) (compile s scope e') := by
  have hreads : e'.readsRow = e.readsRow := keepsRow_spellings.anywhere h
  rcases hrow : e.readsRow with _ | _
  · have hsame : SameValues e e' := sameValues_spellings h hrow
    obtain ⟨hparam, hparam'⟩ : e.isParameter = !e.readsRow ∧ e'.isParameter = !e'.readsRow :=
      h.elim Respells.isParameter_eq fun h => h.isParameter_eq.symm
    rw [compile_eq_compileParameter (by simp [hparam, hrow]),
      compile_eq_compileParameter (by simp [hparam', hreads, hrow])]
    exact compileParameter_agrees hsame hsame
  · refine (compile_agrees_self .refl s scope e).congr (.refl _) ?_
    rcases h with h | h
    · exact fun c r c' => (h.compile_sameYields hrow s scope c r c').symm
    · exact h.compile_sameYields (hreads.trans hrow) s scope

/-- **Spellings do not show** over any statement. -/
theorem unseen_spellings (s : Statement) : Unseen SameValues True s spellings where
  keepsRow := keepsRow_spellings
  anywhere h := compile_agrees_spellings h s
  source := False.elim
  value := False.elim
  not_isOpened h := h.elim (fun h => h.elim Respells.isOpened fun h => h.isOpened.symm) False.elim
  deferred h hfree := h.sameValues keepsRow_spellings sameValues_spellings hfree
  sameValues h hfree := h.sameValues keepsRow_spellings sameValues_spellings hfree

end Expr

open NestedQuery.Expr (spellings unseen_spellings)

/-! ### Queries -/

/-- **A query with its membership tests spelled in other ways** is the same statement with the same
plan, and the parameters have the same values, or neither compiles. The operator is a spelling of
tests that read the row. Of a test that does not, it is one only if the test never has a value. -/
theorem QuerySpec.compile_respelled {q q' : QuerySpec} {m m' : Expr}
    (hq : q.Replaces spellings q') (hm : ReplacesValue spellings m m') :
    (∀ settings n n',
      (∀ query, (q.compile settings m).run n = .ok (query, n') →
        ∃ query', (q'.compile settings m').run n = .ok (query', n') ∧
          query.Interchangeable query') ∧
      ∀ query', (q'.compile settings m').run n = .ok (query', n') →
        ∃ query, (q.compile settings m).run n = .ok (query, n') ∧
          query.Interchangeable query') ∧
    ∀ v set : Expr, SameValues (.isIn v set) (.binary .isIn v set) ↔ ∀ arguments x y,
      v.evaluate arguments = .ok x → set.evaluate arguments = .ok y →
        (∀ items, y ≠ .list items) ∧ x ≠ .null ∧ y ≠ .null :=
  ⟨compile_replaced unseen_spellings hq hm, fun _ _ => Expr.sameValues_operator_iff⟩

/-- The people of some names, with their classes. -/
def namedPeople (named : Expr) : QuerySpec :=
  { people with joins := [classJoin], filters := [named] }

/-- Each person's name, and whether `asked` holds. -/
def askedNames (asked : Expr) : Expr :=
  .object [("name", shapeField "person" "name"), ("asked", asked)]

/-- The operator stands for `isIn` in the filter, and `contains` in the mapping. In the mapping, the
operator may not: a number is in a list with it, but the operator has no value. -/
theorem compile_respelled_namedPeople :
    let names := Expr.member .args "names"
    let person := shapeField "person" "name"
    let ann := Expr.constant (.text "Ann")
    let arguments := Document.object [("names", .array [.text "Ann", .text "Bo"])]
    (namedPeople (.isIn person names)).Replaces spellings
        (namedPeople (.binary .isIn person names)) ∧
      ReplacesValue spellings (askedNames (.isIn ann names)) (askedNames (.contains names ann)) ∧
      (∃ query query' n' rendered, ((namedPeople (.isIn person names)).compile {}
          (askedNames (.isIn ann names))).run 0 = .ok (query, n') ∧
        ((namedPeople (.binary .isIn person names)).compile {}
          (askedNames (.contains names ann))).run 0 = .ok (query', n') ∧
        query.render arguments = .ok rendered ∧ query'.render arguments = .ok rendered ∧
        rendered.params.length = 3) ∧
      ¬ SameValues (.isIn (.constant (.integer 1)) (.array [.constant (.integer 1)]))
        (.binary .isIn (.constant (.integer 1)) (.array [.constant (.integer 1)])) := by
  intro names person ann arguments
  have hq : (namedPeople (.isIn person names)).Replaces spellings
      (namedPeople (.binary .isIn person names)) :=
    { primary := rfl
      joins := .cons ⟨rfl, rfl, rfl, .refl _⟩ .nil
      filters := .cons (.expr (.here (.inl (.operator (.inl rfl))))) .nil
      order := .nil
      skip := rfl
      take := rfl }
  have hm : ReplacesValue spellings (askedNames (.isIn ann names))
      (askedNames (.contains names ann)) :=
    .expr (.inside (.object (.cons "name" (.refl _)
      (.cons "asked" (.expr (.here (.inl (.contains _ _)))) .nil))))
  have hrun : (((namedPeople (.isIn person names)).compile {}
      (askedNames (.isIn ann names))).run 0).any (fun x =>
        (x.1.render arguments).any fun r => r.params.length == 3) = true := by
    decide +kernel
  obtain ⟨⟨query, n'⟩, hquery, hchecked⟩ := Result.any_eq_true_iff.mp hrun
  obtain ⟨rendered, hrendered, hlength⟩ := Result.any_eq_true_iff.mp hchecked
  obtain ⟨hcompile, hvalues⟩ := QuerySpec.compile_respelled hq hm
  obtain ⟨query', hquery', hsame⟩ := (hcompile {} 0 n').1 query hquery
  have hrendered' : query'.render arguments = .ok rendered := by
    rw [← Result.toOption_eq_some_iff, hsame.render, hrendered]
    rfl
  refine ⟨hq, hm, ⟨query, query', n', rendered, hquery, hquery', hrendered, hrendered',
    beq_iff_eq.mp hlength⟩, fun h => ?_⟩
  exact ((hvalues _ _).mp h .null (.integer 1) (.list [.integer 1]) rfl rfl).1 _ rfl

end NestedQuery
