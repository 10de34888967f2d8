import NestedQuery.Proofs.Mapping.Preservation

/-!
# Arguments as constants

`Expr.onArguments` puts the values of one execution's arguments into an expression: each member
chain of the arguments, as long as it goes, becomes a constant. What is left mentions no arguments,
reads the row where the expression did, and has the expression's value, provided that each of the
chains has one (`toOption_evaluate_onArguments`).
-/

namespace NestedQuery

/-! ### Documents that have a value -/

mutual

/-- Whether a document is an object or a list with one inside. -/
def Document.holdsObject : Document → Bool
  | .object _ => true
  | .array items => anyHoldsObject items
  | _ => false

/-- Whether one of several documents holds an object. -/
def Document.anyHoldsObject : List Document → Bool
  | [] => false
  | d :: ds => d.holdsObject || anyHoldsObject ds

end

mutual

/-- Every document without an object has a value. -/
theorem Value.exists_ofDocument_eq_ok :
    (d : Document) → d.holdsObject = false → ∃ v, Value.ofDocument d = .ok v
  | .null, _ | .bool _, _ | .integer _, _ | .unsigned _, _ | .float _, _ | .text _, _ => ⟨_, rfl⟩
  | .array items, h => by
    obtain ⟨vs, hvs⟩ := exists_ofDocuments_eq_ok items h
    exact ⟨.list vs, by rw [ofDocument, hvs]; rfl⟩
  | .object _, h => by cases h

theorem Value.exists_ofDocuments_eq_ok :
    (ds : List Document) → Document.anyHoldsObject ds = false → ∃ vs, ofDocuments ds = .ok vs
  | [], _ => ⟨[], rfl⟩
  | d :: ds, h => by
    obtain ⟨hd, hds⟩ := Bool.or_eq_false_iff.mp h
    obtain ⟨v, hv⟩ := exists_ofDocument_eq_ok d hd
    obtain ⟨vs, hvs⟩ := exists_ofDocuments_eq_ok ds hds
    exact ⟨v :: vs, by rw [ofDocuments, hv, hvs]; rfl⟩

end

namespace Expr

/-! ### Putting the arguments in -/

/-- The value of a member chain of the arguments. A chain without a value counts as null. -/
def argumentValue (arguments : Document) (e : Expr) : Value :=
  (e.evaluate arguments).toOption.getD .null

mutual

/-- The expression with the values of the arguments in place of its longest member chains. -/
def onArguments (arguments : Document) : Expr → Expr
  | row => row
  | args => constant (args.argumentValue arguments)
  | var name => var name
  | constant value => constant value
  | member base name =>
    if base.isArgument then constant ((member base name).argumentValue arguments)
    else member (base.onArguments arguments) name
  | unary op operand => unary op (operand.onArguments arguments)
  | binary op left right => binary op (left.onArguments arguments) (right.onArguments arguments)
  | tuple items => tuple (onArgumentsAll arguments items)
  | array items => array (onArgumentsAll arguments items)
  | object members => object (onArgumentsMembers arguments members)
  | conditional test ifTrue ifFalse =>
    conditional (test.onArguments arguments) (ifTrue.onArguments arguments)
      (ifFalse.onArguments arguments)
  | cases branches otherwise =>
    cases (onArgumentsBranches arguments branches) (otherwise.onArguments arguments)
  | casesOf subject branches otherwise =>
    casesOf (subject.onArguments arguments) (onArgumentsBranches arguments branches)
      (otherwise.onArguments arguments)
  | aggregate function source => aggregate function (source.onArguments arguments)
  | apply function operand => apply function (operand.onArguments arguments)
  | select source param body =>
    select (source.onArguments arguments) param (body.onArguments arguments)
  | toList source => toList (source.onArguments arguments)
  | one source => one (source.onArguments arguments)
  | rowNumber => rowNumber
  | isIn value set => isIn (value.onArguments arguments) (set.onArguments arguments)
  | contains set value => contains (set.onArguments arguments) (value.onArguments arguments)
  | method receiver name values =>
    method (receiver.onArguments arguments) name (onArgumentsAll arguments values)

/-- The same for several expressions. -/
def onArgumentsAll (arguments : Document) : List Expr → List Expr
  | [] => []
  | e :: es => e.onArguments arguments :: onArgumentsAll arguments es

/-- The same for named members. -/
def onArgumentsMembers (arguments : Document) : List (String × Expr) → List (String × Expr)
  | [] => []
  | (name, e) :: es => (name, e.onArguments arguments) :: onArgumentsMembers arguments es

/-- The same for the branches of a case. -/
def onArgumentsBranches (arguments : Document) : List (Expr × Expr) → List (Expr × Expr)
  | [] => []
  | (test, value) :: rest =>
    (test.onArguments arguments, value.onArguments arguments) :: onArgumentsBranches arguments rest

end

mutual

/-- The longest member chains of the arguments in an expression. -/
def argumentPaths : Expr → List Expr
  | args => [args]
  | row | var _ | constant _ | rowNumber => []
  | member base name => if base.isArgument then [member base name] else base.argumentPaths
  | unary _ operand => operand.argumentPaths
  | binary _ left right => left.argumentPaths ++ right.argumentPaths
  | tuple items | array items => argumentPathsAll items
  | object members => argumentPathsMembers members
  | conditional test ifTrue ifFalse =>
    test.argumentPaths ++ (ifTrue.argumentPaths ++ ifFalse.argumentPaths)
  | cases branches otherwise => argumentPathsBranches branches ++ otherwise.argumentPaths
  | casesOf subject branches otherwise =>
    subject.argumentPaths ++ (argumentPathsBranches branches ++ otherwise.argumentPaths)
  | aggregate _ source => source.argumentPaths
  | apply _ operand => operand.argumentPaths
  | select source _ body => source.argumentPaths ++ body.argumentPaths
  | toList source | one source => source.argumentPaths
  | isIn value set | contains set value => value.argumentPaths ++ set.argumentPaths
  | method receiver _ values => receiver.argumentPaths ++ argumentPathsAll values

/-- Those in several expressions. -/
def argumentPathsAll : List Expr → List Expr
  | [] => []
  | e :: es => e.argumentPaths ++ argumentPathsAll es

/-- Those in named members. -/
def argumentPathsMembers : List (String × Expr) → List Expr
  | [] => []
  | (_, e) :: es => e.argumentPaths ++ argumentPathsMembers es

/-- Those in the branches of a case. -/
def argumentPathsBranches : List (Expr × Expr) → List Expr
  | [] => []
  | (test, value) :: rest =>
    test.argumentPaths ++ (value.argumentPaths ++ argumentPathsBranches rest)

end

variable {arguments : Document}

theorem onArguments_member_of_isArgument {base : Expr} (h : base.isArgument) (name : String) :
    (member base name).onArguments arguments =
      constant ((member base name).argumentValue arguments) := by
  rw [onArguments, if_pos h]

theorem onArguments_member_of_not_isArgument {base : Expr} (h : ¬ base.isArgument = true)
    (name : String) :
    (member base name).onArguments arguments = member (base.onArguments arguments) name := by
  rw [onArguments, if_neg h]

/-- Arrays are built by arrays only. -/
theorem onArguments_ne_array {e : Expr} (h : ∀ items, e ≠ array items) (items : List Expr) :
    e.onArguments arguments ≠ array items := by
  cases e with
  | array items => exact absurd rfl (h items)
  | member base name =>
    by_cases hbase : base.isArgument
    · rw [onArguments_member_of_isArgument hbase]
      exact Expr.noConfusion
    · rw [onArguments_member_of_not_isArgument hbase]
      exact Expr.noConfusion
  | _ => exact Expr.noConfusion

/-! ### What is read -/

theorem readsRow_eq_false_of_isArgument {e : Expr} (h : e.isArgument) : e.readsRow = false :=
  readsRow_eq_false_of_isParameter (isParameter_of_isArgument h)

mutual

/-- The row is read as before. -/
theorem readsRow_onArguments :
    (e : Expr) → (e.onArguments arguments).readsRow = e.readsRow
  | row | args | var _ | constant _ | rowNumber | select .. => rfl
  | member base name => by
    -- A member of an argument is replaced as a whole.
    by_cases hbase : base.isArgument
    · rw [onArguments_member_of_isArgument hbase]
      exact (readsRow_eq_false_of_isArgument hbase).symm
    · rw [onArguments_member_of_not_isArgument hbase]
      exact readsRow_onArguments base
  | unary _ operand | apply _ operand => readsRow_onArguments operand
  | aggregate _ source | toList source | one source => readsRow_onArguments source
  | binary _ left right => by
    rw [onArguments, readsRow, readsRow, readsRow_onArguments left, readsRow_onArguments right]
  | tuple items | array items => anyReadsRow_onArgumentsAll items
  | object members => anyMemberReadsRow_onArgumentsMembers members
  | conditional test ifTrue ifFalse => by
    rw [onArguments, readsRow, readsRow, readsRow_onArguments test, readsRow_onArguments ifTrue,
      readsRow_onArguments ifFalse]
  | cases branches otherwise => by
    rw [onArguments, readsRow, readsRow, anyBranchReadsRow_onArgumentsBranches branches,
      readsRow_onArguments otherwise]
  | casesOf subject branches otherwise => by
    rw [onArguments, readsRow, readsRow, readsRow_onArguments subject,
      anyBranchReadsRow_onArgumentsBranches branches, readsRow_onArguments otherwise]
  | isIn value set | contains set value => by
    rw [onArguments, readsRow, readsRow, readsRow_onArguments value, readsRow_onArguments set]
  | method receiver _ values => by
    rw [onArguments, readsRow, readsRow, readsRow_onArguments receiver,
      anyReadsRow_onArgumentsAll values]

theorem anyReadsRow_onArgumentsAll :
    (es : List Expr) → anyReadsRow (onArgumentsAll arguments es) = anyReadsRow es
  | [] => rfl
  | e :: es => by
    rw [onArgumentsAll, anyReadsRow, anyReadsRow, readsRow_onArguments e,
      anyReadsRow_onArgumentsAll es]

theorem anyMemberReadsRow_onArgumentsMembers :
    (es : List (String × Expr)) →
      anyMemberReadsRow (onArgumentsMembers arguments es) = anyMemberReadsRow es
  | [] => rfl
  | (_, e) :: es => by
    rw [onArgumentsMembers, anyMemberReadsRow, anyMemberReadsRow, readsRow_onArguments e,
      anyMemberReadsRow_onArgumentsMembers es]

theorem anyBranchReadsRow_onArgumentsBranches :
    (bs : List (Expr × Expr)) →
      anyBranchReadsRow (onArgumentsBranches arguments bs) = anyBranchReadsRow bs
  | [] => rfl
  | (test, value) :: rest => by
    rw [onArgumentsBranches, anyBranchReadsRow, anyBranchReadsRow, readsRow_onArguments test,
      readsRow_onArguments value, anyBranchReadsRow_onArgumentsBranches rest]

end

mutual

/-- No arguments are left. -/
theorem readsArgs_onArguments : (e : Expr) → (e.onArguments arguments).readsArgs = false
  | row | args | var _ | constant _ | rowNumber => rfl
  | member base name => by
    -- A member of an argument is replaced as a whole.
    by_cases hbase : base.isArgument
    · rw [onArguments_member_of_isArgument hbase]
      rfl
    · rw [onArguments_member_of_not_isArgument hbase]
      exact readsArgs_onArguments base
  | unary _ operand | apply _ operand => readsArgs_onArguments operand
  | aggregate _ source | toList source | one source => readsArgs_onArguments source
  | binary _ left right => by
    rw [onArguments, readsArgs, readsArgs_onArguments left, readsArgs_onArguments right]
    rfl
  | select source _ body => by
    rw [onArguments, readsArgs, readsArgs_onArguments source, readsArgs_onArguments body]
    rfl
  | tuple items | array items => anyReadsArgs_onArgumentsAll items
  | object members => anyMemberReadsArgs_onArgumentsMembers members
  | conditional test ifTrue ifFalse => by
    rw [onArguments, readsArgs, readsArgs_onArguments test, readsArgs_onArguments ifTrue,
      readsArgs_onArguments ifFalse]
    rfl
  | cases branches otherwise => by
    rw [onArguments, readsArgs, anyBranchReadsArgs_onArgumentsBranches branches,
      readsArgs_onArguments otherwise]
    rfl
  | casesOf subject branches otherwise => by
    rw [onArguments, readsArgs, readsArgs_onArguments subject,
      anyBranchReadsArgs_onArgumentsBranches branches, readsArgs_onArguments otherwise]
    rfl
  | isIn value set | contains set value => by
    rw [onArguments, readsArgs, readsArgs_onArguments value, readsArgs_onArguments set]
    rfl
  | method receiver _ values => by
    rw [onArguments, readsArgs, readsArgs_onArguments receiver,
      anyReadsArgs_onArgumentsAll values]
    rfl

theorem anyReadsArgs_onArgumentsAll :
    (es : List Expr) → anyReadsArgs (onArgumentsAll arguments es) = false
  | [] => rfl
  | e :: es => by
    rw [onArgumentsAll, anyReadsArgs, readsArgs_onArguments e, anyReadsArgs_onArgumentsAll es]
    rfl

theorem anyMemberReadsArgs_onArgumentsMembers :
    (es : List (String × Expr)) →
      anyMemberReadsArgs (onArgumentsMembers arguments es) = false
  | [] => rfl
  | (_, e) :: es => by
    rw [onArgumentsMembers, anyMemberReadsArgs, readsArgs_onArguments e,
      anyMemberReadsArgs_onArgumentsMembers es]
    rfl

theorem anyBranchReadsArgs_onArgumentsBranches :
    (bs : List (Expr × Expr)) →
      anyBranchReadsArgs (onArgumentsBranches arguments bs) = false
  | [] => rfl
  | (test, value) :: rest => by
    rw [onArgumentsBranches, anyBranchReadsArgs, readsArgs_onArguments test,
      readsArgs_onArguments value, anyBranchReadsArgs_onArgumentsBranches rest]
    rfl

end

/-- What becomes a parameter becomes one still. -/
theorem isParameter_onArguments (e : Expr) :
    (e.onArguments arguments).isParameter = e.isParameter := by
  cases e with
  | member base name =>
    by_cases hbase : base.isArgument
    · have hmember : (member base name).isArgument := hbase
      rw [onArguments_member_of_isArgument hbase, isParameter_of_isArgument hmember]
      rfl
    · have hrow : ((member base name).onArguments arguments).readsRow =
          (member base name).readsRow := readsRow_onArguments _
      rw [onArguments_member_of_not_isArgument hbase] at hrow ⊢
      exact congrArg (! ·) hrow
  | unary _ _ | binary _ _ _ | conditional _ _ _ | cases _ _ | casesOf _ _ _ | apply _ _ | isIn _ _
  | contains _ _ => exact congrArg (! ·) (readsRow_onArguments _)
  | _ => rfl

/-! ### Values -/

/-- Only the arguments have members to follow. -/
theorem toOption_navigate_of_not_isArgument {e : Expr} (h : ¬ e.isArgument = true) :
    (e.navigate arguments).toOption = none := by
  induction e using rowPath?.induct with
  | case1 => rfl
  | case2 base name ih =>
    rw [navigate, Result.toOption_bind, ih h]
    rfl
  | case3 e hrow hmember =>
    cases e with
    | args => exact absurd rfl h
    | member base name => exact absurd rfl (hmember base name)
    | _ => rfl

theorem isArgument_eq_false_of_not_readsArgs {e : Expr} (h : e.readsArgs = false) :
    ¬ e.isArgument = true := by
  induction e using rowPath?.induct with
  | case1 => exact Bool.false_ne_true
  | case2 base name ih => exact ih h
  | case3 e hrow hmember =>
    cases e with
    | args => cases h
    | member base name => exact absurd rfl (hmember base name)
    | _ => exact Bool.false_ne_true

/-- The chain has a value. -/
def HasValue (arguments : Document) (e : Expr) : Prop :=
  ∃ v, e.evaluate arguments = .ok v

/-- Each of the chains has a value. -/
abbrev HaveValues (arguments : Document) (paths : List Expr) : Prop :=
  ∀ path ∈ paths, path.HasValue arguments

/-- A chain that leads to a document without objects has a value. -/
theorem hasValue_of_navigate_eq_ok {e : Expr} {d : Document} (h : e.navigate arguments = .ok d)
    (hobject : d.holdsObject = false) : e.HasValue arguments := by
  obtain ⟨v, hv⟩ := Value.exists_ofDocument_eq_ok d hobject
  refine ⟨v, ?_⟩
  cases e with
  | args =>
    obtain rfl := Except.ok.inj h
    exact hv
  | member base name =>
    rw [evaluate, h, ← hv]
    rfl
  | _ => cases h

theorem toOption_evaluate_argumentValue {e : Expr} (h : e.HasValue arguments) :
    ((constant (e.argumentValue arguments)).evaluate .null).toOption =
      (e.evaluate arguments).toOption := by
  obtain ⟨v, hv⟩ := h
  rw [argumentValue, hv]
  rfl

mutual

/-- **The value stays**, now for any arguments. -/
theorem toOption_evaluate_onArguments :
    (e : Expr) → HaveValues arguments e.argumentPaths →
      ((e.onArguments arguments).evaluate .null).toOption = (e.evaluate arguments).toOption
  | row, _ | var _, _ | constant _, _ | rowNumber, _ | object _, _ | aggregate .., _ | select .., _
  | toList _, _ | one _, _ | method .., _ => rfl
  | args, h => toOption_evaluate_argumentValue (h args (List.mem_singleton_self _))
  | member base name, h => by
    by_cases hbase : base.isArgument
    · rw [argumentPaths, if_pos hbase] at h
      rw [onArguments_member_of_isArgument hbase]
      exact toOption_evaluate_argumentValue (h _ (List.mem_singleton_self _))
    · -- Nothing but the arguments has members, so neither chain has a value.
      have hafter : ¬ (member (base.onArguments arguments) name).isArgument = true :=
        isArgument_eq_false_of_not_readsArgs (readsArgs_onArguments base)
      have hbefore : ¬ (member base name).isArgument = true := hbase
      rw [onArguments_member_of_not_isArgument hbase, evaluate, evaluate, Result.toOption_bind,
        Result.toOption_bind, toOption_navigate_of_not_isArgument hafter,
        toOption_navigate_of_not_isArgument hbefore]
  | unary op operand, h => by
    rw [onArguments, evaluate, evaluate, Result.toOption_bind, Result.toOption_bind,
      toOption_evaluate_onArguments operand h]
    simp only [toOption_orOperandTypes]
  | binary op left right, h => by
    obtain ⟨hl, hr⟩ := List.forall_mem_append.mp h
    rw [onArguments, evaluate, evaluate, Result.toOption_bind, Result.toOption_bind,
      toOption_evaluate_onArguments left hl]
    simp only [Result.toOption_bind, toOption_orOperandTypes,
      toOption_evaluate_onArguments right hr]
  | tuple items, h | array items, h => by
    rw [onArguments, evaluate, evaluate, Result.toOption_bind, Result.toOption_bind,
      toOption_evaluateAll_onArgumentsAll items h]
  | conditional test ifTrue ifFalse, h => by
    obtain ⟨ht, h⟩ := List.forall_mem_append.mp h
    obtain ⟨hv, hf⟩ := List.forall_mem_append.mp h
    rw [onArguments, evaluate, evaluate, Result.toOption_bind, Result.toOption_bind,
      toOption_evaluate_onArguments test ht]
    simp only [apply_ite Except.toOption, toOption_evaluate_onArguments ifTrue hv,
      toOption_evaluate_onArguments ifFalse hf]
  | cases branches otherwise, h => by
    obtain ⟨hbs, ho⟩ := List.forall_mem_append.mp h
    rw [onArguments, evaluate, evaluate, Result.toOption_bind, Result.toOption_bind,
      toOption_evaluateCases_onArgumentsBranches branches hbs]
    refine congrArg _ (funext fun v? => ?_)
    -- The alternative counts only where no branch has been taken.
    cases v? with
    | some v => rfl
    | none => exact toOption_evaluate_onArguments otherwise ho
  | casesOf subject branches otherwise, h => by
    obtain ⟨hs, h⟩ := List.forall_mem_append.mp h
    obtain ⟨hbs, ho⟩ := List.forall_mem_append.mp h
    rw [onArguments, evaluate, evaluate, Result.toOption_bind, Result.toOption_bind,
      toOption_evaluate_onArguments subject hs]
    refine congrArg _ (funext fun v => ?_)
    rw [Result.toOption_bind, Result.toOption_bind,
      toOption_evaluateCasesOf_onArgumentsBranches branches hbs]
    refine congrArg _ (funext fun v? => ?_)
    cases v? with
    | some v => rfl
    | none => exact toOption_evaluate_onArguments otherwise ho
  | apply function operand, h => by
    rw [onArguments, evaluate, evaluate, Result.toOption_bind, Result.toOption_bind,
      toOption_evaluate_onArguments operand h]
    simp only [toOption_orOperandTypes]
  | isIn value set, h | contains set value, h => by
    obtain ⟨hv, hs⟩ := List.forall_mem_append.mp h
    rw [onArguments, evaluate, evaluate, Result.toOption_bind, Result.toOption_bind,
      toOption_evaluate_onArguments value hv]
    simp only [Result.toOption_bind, toOption_membership, toOption_evaluate_onArguments set hs]

theorem toOption_evaluateAll_onArgumentsAll :
    (es : List Expr) → HaveValues arguments (argumentPathsAll es) →
      (evaluateAll .null (onArgumentsAll arguments es)).toOption =
        (evaluateAll arguments es).toOption
  | [], _ => rfl
  | e :: es, h => by
    obtain ⟨he, hes⟩ := List.forall_mem_append.mp h
    rw [onArgumentsAll, evaluateAll, evaluateAll, Result.toOption_bind, Result.toOption_bind,
      toOption_evaluate_onArguments e he]
    simp only [Result.toOption_bind, toOption_evaluateAll_onArgumentsAll es hes]

theorem toOption_evaluateCases_onArgumentsBranches :
    (bs : List (Expr × Expr)) → HaveValues arguments (argumentPathsBranches bs) →
      (evaluateCases .null (onArgumentsBranches arguments bs)).toOption =
        (evaluateCases arguments bs).toOption
  | [], _ => rfl
  | (test, value) :: rest, h => by
    obtain ⟨ht, h⟩ := List.forall_mem_append.mp h
    obtain ⟨hv, hrest⟩ := List.forall_mem_append.mp h
    rw [onArgumentsBranches, evaluateCases, evaluateCases, Result.toOption_bind,
      Result.toOption_bind, toOption_evaluate_onArguments test ht]
    simp only [apply_ite Except.toOption, Result.toOption_bind,
      toOption_evaluate_onArguments value hv, toOption_evaluateCases_onArgumentsBranches rest hrest]

theorem toOption_evaluateCasesOf_onArgumentsBranches :
    (bs : List (Expr × Expr)) → HaveValues arguments (argumentPathsBranches bs) →
      ∀ subject, (evaluateCasesOf .null subject (onArgumentsBranches arguments bs)).toOption =
        (evaluateCasesOf arguments subject bs).toOption
  | [], _, _ => rfl
  | (key, value) :: rest, h, subject => by
    obtain ⟨hk, h⟩ := List.forall_mem_append.mp h
    obtain ⟨hv, hrest⟩ := List.forall_mem_append.mp h
    rw [onArgumentsBranches, evaluateCasesOf, evaluateCasesOf, Result.toOption_bind,
      Result.toOption_bind, toOption_evaluate_onArguments key hk]
    simp only [apply_ite Except.toOption, Result.toOption_bind,
      toOption_evaluate_onArguments value hv,
      toOption_evaluateCasesOf_onArgumentsBranches rest hrest subject]

end

/-- An expression and the one with the arguments put in have the same values. -/
theorem evaluate_onArguments_eq_ok_iff {e : Expr}
    (h : HaveValues arguments e.argumentPaths) {v : Value} :
    (e.onArguments arguments).evaluate .null = .ok v ↔ e.evaluate arguments = .ok v := by
  rw [← Result.toOption_eq_some_iff, ← Result.toOption_eq_some_iff,
    toOption_evaluate_onArguments e h]

end Expr

end NestedQuery
