import NestedQuery.Expr.Evaluate
import NestedQuery.Proofs.Result

/-!
# The value of an expression for a row

`Expr.evaluate` knows no rows. The value of an expression for a row is that of the expression with
the row's columns put in as constants (`Expr.onRow`): `Expr.value?`, which is nothing if evaluation
fails. Each operator has an equation that gives its value from those of its operands.

* `value?_eq_of_not_readsRow`: an expression that reads no row has the same value for every row.
* `evaluate_eq_of_not_readsArgs`: an expression that mentions no arguments has one value.
-/

namespace NestedQuery

/-- The items of a list; nothing for any other value. -/
def Value.items? : Value → Option (List Value)
  | .list items => some items
  | _ => none

theorem Value.items?_eq_some_iff {v : Value} {items : List Value} :
    v.items? = some items ↔ v = .list items := by
  cases v <;> simp [items?]

namespace Expr

/-! ### Rows -/

/-- The member names of a chain that starts at the row. -/
def rowPath? : Expr → Option (List String)
  | row => some []
  | member base name => base.rowPath?.map fun path => path ++ [name]
  | _ => none

mutual

/-- The expression with the values of a row in place of its member chains. What has no value is
left as it is. -/
def onRow (values : List String → Value) : Expr → Expr
  | row => constant (values [])
  | member base name =>
    match (member base name).rowPath? with
    | some path => constant (values path)
    | none => member (base.onRow values) name
  | unary op operand => unary op (operand.onRow values)
  | binary op left right => binary op (left.onRow values) (right.onRow values)
  | tuple items => tuple (onRowAll values items)
  | array items => array (onRowAll values items)
  | conditional test ifTrue ifFalse =>
    conditional (test.onRow values) (ifTrue.onRow values) (ifFalse.onRow values)
  | cases branches otherwise => cases (onRowBranches values branches) (otherwise.onRow values)
  | casesOf subject branches otherwise =>
    casesOf (subject.onRow values) (onRowBranches values branches) (otherwise.onRow values)
  | apply function operand => apply function (operand.onRow values)
  | isIn value set => isIn (value.onRow values) (set.onRow values)
  | contains set value => contains (set.onRow values) (value.onRow values)
  | e => e

/-- The same for several expressions. -/
def onRowAll (values : List String → Value) : List Expr → List Expr
  | [] => []
  | e :: es => e.onRow values :: onRowAll values es

/-- The same for the branches of a case. -/
def onRowBranches (values : List String → Value) : List (Expr × Expr) → List (Expr × Expr)
  | [] => []
  | (test, value) :: rest => (test.onRow values, value.onRow values) :: onRowBranches values rest

end

theorem readsRow_of_rowPath?_eq_some {e : Expr} {path : List String} (h : e.rowPath? = some path) :
    e.readsRow = true := by
  induction e using rowPath?.induct generalizing path with
  | case1 => rfl
  | case2 base name ih =>
    obtain ⟨path', hpath', -⟩ := Option.map_eq_some_iff.mp h
    exact ih hpath'
  | case3 e hrow hmember =>
    rw [rowPath?] at h
    · exact absurd h nofun
    · exact hrow
    · exact hmember

/-- A member chain of the row is replaced as a whole. -/
theorem onRow_of_rowPath?_eq_some {e : Expr} {path : List String} (h : e.rowPath? = some path)
    (values : List String → Value) : e.onRow values = constant (values path) := by
  cases e with
  | row =>
    obtain rfl := Option.some.inj h
    rfl
  | member base name => rw [onRow, h]
  | _ => exact absurd h nofun

mutual

/-- An expression that reads no row is left as it is. -/
theorem onRow_eq_self (values : List String → Value) :
    (e : Expr) → e.readsRow = false → e.onRow values = e
  | row, h | var _, h | rowNumber, h | select .., h => absurd h nofun
  | args, _ | constant _, _ | object _, _ | aggregate .., _ | toList _, _ | one _, _
  | method .., _ => rfl
  | member base name, h => by
    -- A chain on the row would read it.
    have hpath : (member base name).rowPath? = none := by
      rw [Option.eq_none_iff_forall_ne_some]
      intro path hpath
      rw [readsRow_of_rowPath?_eq_some hpath] at h
      exact absurd h nofun
    rw [onRow, hpath]
    exact congrArg (member · name) (onRow_eq_self values base h)
  | unary op operand, h => by rw [onRow, onRow_eq_self values operand h]
  | binary op left right, h => by
    obtain ⟨hl, hr⟩ := Bool.or_eq_false_iff.mp h
    rw [onRow, onRow_eq_self values left hl, onRow_eq_self values right hr]
  | tuple items, h => by rw [onRow, onRowAll_eq_self values items h]
  | array items, h => by rw [onRow, onRowAll_eq_self values items h]
  | conditional test ifTrue ifFalse, h => by
    obtain ⟨h, hf⟩ := Bool.or_eq_false_iff.mp h
    obtain ⟨ht, hv⟩ := Bool.or_eq_false_iff.mp h
    rw [onRow, onRow_eq_self values test ht, onRow_eq_self values ifTrue hv,
      onRow_eq_self values ifFalse hf]
  | cases branches otherwise, h => by
    obtain ⟨hbs, ho⟩ := Bool.or_eq_false_iff.mp h
    rw [onRow, onRowBranches_eq_self values branches hbs, onRow_eq_self values otherwise ho]
  | casesOf subject branches otherwise, h => by
    obtain ⟨h, ho⟩ := Bool.or_eq_false_iff.mp h
    obtain ⟨hs, hbs⟩ := Bool.or_eq_false_iff.mp h
    rw [onRow, onRow_eq_self values subject hs, onRowBranches_eq_self values branches hbs,
      onRow_eq_self values otherwise ho]
  | apply function operand, h => by rw [onRow, onRow_eq_self values operand h]
  | isIn value set, h => by
    obtain ⟨hv, hs⟩ := Bool.or_eq_false_iff.mp h
    rw [onRow, onRow_eq_self values value hv, onRow_eq_self values set hs]
  | contains set value, h => by
    obtain ⟨hv, hs⟩ := Bool.or_eq_false_iff.mp h
    rw [onRow, onRow_eq_self values value hv, onRow_eq_self values set hs]

theorem onRowAll_eq_self (values : List String → Value) :
    (es : List Expr) → anyReadsRow es = false → onRowAll values es = es
  | [], _ => rfl
  | e :: es, h => by
    obtain ⟨he, hes⟩ := Bool.or_eq_false_iff.mp h
    rw [onRowAll, onRow_eq_self values e he, onRowAll_eq_self values es hes]

theorem onRowBranches_eq_self (values : List String → Value) :
    (bs : List (Expr × Expr)) → anyBranchReadsRow bs = false → onRowBranches values bs = bs
  | [], _ => rfl
  | (test, value) :: rest, h => by
    obtain ⟨h, hrest⟩ := Bool.or_eq_false_iff.mp h
    obtain ⟨ht, hv⟩ := Bool.or_eq_false_iff.mp h
    rw [onRowBranches, onRow_eq_self values test ht, onRow_eq_self values value hv,
      onRowBranches_eq_self values rest hrest]

end

/-! ### Arguments -/

/-- Where an expression mentions no arguments, there is no member of them to follow. -/
theorem navigate_eq_of_not_readsArgs (arguments arguments' : Document) (e : Expr)
    (h : e.readsArgs = false) : e.navigate arguments = e.navigate arguments' := by
  induction e using rowPath?.induct with
  | case1 => rfl
  | case2 base name ih => rw [navigate, navigate, ih h]
  | case3 e hrow hmember =>
    cases e with
    | args => exact absurd h nofun
    | member base name => exact absurd rfl (hmember base name)
    | _ => rfl

mutual

/-- An expression that mentions no arguments has one value. -/
theorem evaluate_eq_of_not_readsArgs (a a' : Document) :
    (e : Expr) → e.readsArgs = false → e.evaluate a = e.evaluate a'
  | args, h => absurd h nofun
  | row, _ | var _, _ | constant _, _ | object _, _ | aggregate .., _ | select .., _ | toList _, _
  | one _, _ | rowNumber, _ | method .., _ => rfl
  | member base name, h => by
    rw [evaluate, evaluate, navigate_eq_of_not_readsArgs a a' (member base name) h]
  | unary op operand, h => by
    rw [evaluate, evaluate, evaluate_eq_of_not_readsArgs a a' operand h]
  | binary op left right, h => by
    obtain ⟨hl, hr⟩ := Bool.or_eq_false_iff.mp h
    rw [evaluate, evaluate, evaluate_eq_of_not_readsArgs a a' left hl,
      evaluate_eq_of_not_readsArgs a a' right hr]
  | tuple items, h => by rw [evaluate, evaluate, evaluateAll_eq_of_not_readsArgs a a' items h]
  | array items, h => by rw [evaluate, evaluate, evaluateAll_eq_of_not_readsArgs a a' items h]
  | conditional test ifTrue ifFalse, h => by
    obtain ⟨h, hf⟩ := Bool.or_eq_false_iff.mp h
    obtain ⟨ht, hv⟩ := Bool.or_eq_false_iff.mp h
    rw [evaluate, evaluate, evaluate_eq_of_not_readsArgs a a' test ht,
      evaluate_eq_of_not_readsArgs a a' ifTrue hv, evaluate_eq_of_not_readsArgs a a' ifFalse hf]
  | cases branches otherwise, h => by
    obtain ⟨hbs, ho⟩ := Bool.or_eq_false_iff.mp h
    rw [evaluate, evaluate, evaluateCases_eq_of_not_readsArgs a a' branches hbs,
      evaluate_eq_of_not_readsArgs a a' otherwise ho]
  | casesOf subject branches otherwise, h => by
    obtain ⟨h, ho⟩ := Bool.or_eq_false_iff.mp h
    obtain ⟨hs, hbs⟩ := Bool.or_eq_false_iff.mp h
    rw [evaluate, evaluate, evaluate_eq_of_not_readsArgs a a' subject hs,
      evaluate_eq_of_not_readsArgs a a' otherwise ho]
    simp only [evaluateCasesOf_eq_of_not_readsArgs a a' branches hbs]
  | apply function operand, h => by
    rw [evaluate, evaluate, evaluate_eq_of_not_readsArgs a a' operand h]
  | isIn value set, h => by
    obtain ⟨hv, hs⟩ := Bool.or_eq_false_iff.mp h
    rw [evaluate, evaluate, evaluate_eq_of_not_readsArgs a a' value hv,
      evaluate_eq_of_not_readsArgs a a' set hs]
  | contains set value, h => by
    obtain ⟨hv, hs⟩ := Bool.or_eq_false_iff.mp h
    rw [evaluate, evaluate, evaluate_eq_of_not_readsArgs a a' value hv,
      evaluate_eq_of_not_readsArgs a a' set hs]

theorem evaluateAll_eq_of_not_readsArgs (a a' : Document) :
    (es : List Expr) → anyReadsArgs es = false → evaluateAll a es = evaluateAll a' es
  | [], _ => rfl
  | e :: es, h => by
    obtain ⟨he, hes⟩ := Bool.or_eq_false_iff.mp h
    rw [evaluateAll, evaluateAll, evaluate_eq_of_not_readsArgs a a' e he,
      evaluateAll_eq_of_not_readsArgs a a' es hes]

theorem evaluateCases_eq_of_not_readsArgs (a a' : Document) :
    (bs : List (Expr × Expr)) → anyBranchReadsArgs bs = false →
      evaluateCases a bs = evaluateCases a' bs
  | [], _ => rfl
  | (test, value) :: rest, h => by
    obtain ⟨h, hrest⟩ := Bool.or_eq_false_iff.mp h
    obtain ⟨ht, hv⟩ := Bool.or_eq_false_iff.mp h
    rw [evaluateCases, evaluateCases, evaluate_eq_of_not_readsArgs a a' test ht,
      evaluate_eq_of_not_readsArgs a a' value hv, evaluateCases_eq_of_not_readsArgs a a' rest hrest]

theorem evaluateCasesOf_eq_of_not_readsArgs (a a' : Document) :
    (bs : List (Expr × Expr)) → anyBranchReadsArgs bs = false → ∀ subject,
      evaluateCasesOf a subject bs = evaluateCasesOf a' subject bs
  | [], _, _ => rfl
  | (key, value) :: rest, h, subject => by
    obtain ⟨h, hrest⟩ := Bool.or_eq_false_iff.mp h
    obtain ⟨hk, hv⟩ := Bool.or_eq_false_iff.mp h
    rw [evaluateCasesOf, evaluateCasesOf, evaluate_eq_of_not_readsArgs a a' key hk,
      evaluate_eq_of_not_readsArgs a a' value hv,
      evaluateCasesOf_eq_of_not_readsArgs a a' rest hrest subject]

end

/-! ### Values -/

/-- The value of an expression for the arguments and a row, if it has one. -/
def value? (arguments : Document) (values : List String → Value) (e : Expr) : Option Value :=
  ((e.onRow values).evaluate arguments).toOption

/-- The value of the first branch whose test holds; nothing if a step fails. -/
def firstCase? (arguments : Document) (values : List String → Value)
    (branches : List (Expr × Expr)) : Option (Option Value) :=
  (evaluateCases arguments (onRowBranches values branches)).toOption

/-- The value of the first branch whose key equals the subject; nothing if a step fails. -/
def firstCaseOf? (arguments : Document) (values : List String → Value) (subject : Value)
    (branches : List (Expr × Expr)) : Option (Option Value) :=
  (evaluateCasesOf arguments subject (onRowBranches values branches)).toOption

section

variable (arguments : Document) (values : List String → Value)

theorem value?_eq_of_not_readsRow {e : Expr} (h : e.readsRow = false) :
    e.value? arguments values = (e.evaluate arguments).toOption := by
  rw [value?, onRow_eq_self values e h]

theorem value?_of_rowPath?_eq_some {e : Expr} {path : List String} (h : e.rowPath? = some path) :
    e.value? arguments values = some (values path) := by
  rw [value?, onRow_of_rowPath?_eq_some h]
  rfl

theorem toOption_orOperandTypes (e : Expr) (v? : Option Value) :
    (e.orOperandTypes v?).toOption = v? := by
  cases v? <;> rfl

theorem toOption_membership (e : Expr) (v set : Value) :
    (e.membership v set).toOption = set.items?.map fun items => .bool (v.isAmong items) := by
  cases set <;> rfl

theorem value?_unary (op : UnaryOp) (operand : Expr) :
    (unary op operand).value? arguments values =
      (operand.value? arguments values).bind (Value.unary? op) := by
  rw [value?, onRow, evaluate, Result.toOption_bind]
  simp only [toOption_orOperandTypes]
  rfl

theorem value?_binary (op : BinaryOp) (left right : Expr) :
    (binary op left right).value? arguments values =
      (left.value? arguments values).bind fun v =>
        (right.value? arguments values).bind fun w => Value.binary? op v w := by
  rw [value?, onRow, evaluate, Result.toOption_bind]
  simp only [Result.toOption_bind, toOption_orOperandTypes]
  rfl

theorem value?_apply (function : Function) (operand : Expr) :
    (apply function operand).value? arguments values =
      (operand.value? arguments values).bind (Value.call? function) := by
  rw [value?, onRow, evaluate, Result.toOption_bind]
  simp only [toOption_orOperandTypes]
  rfl

theorem value?_conditional (test ifTrue ifFalse : Expr) :
    (conditional test ifTrue ifFalse).value? arguments values =
      (test.value? arguments values).bind fun v =>
        if v.isTrue then ifTrue.value? arguments values else ifFalse.value? arguments values := by
  rw [value?, onRow, evaluate, Result.toOption_bind]
  simp only [apply_ite Except.toOption]
  rfl

theorem value?_cases (branches : List (Expr × Expr)) (otherwise : Expr) :
    (cases branches otherwise).value? arguments values =
      (firstCase? arguments values branches).bind fun v? =>
        v?.or (otherwise.value? arguments values) := by
  rw [value?, onRow, evaluate, Result.toOption_bind]
  refine congrArg _ (funext fun v? => ?_)
  cases v? <;> rfl

theorem value?_casesOf (subject : Expr) (branches : List (Expr × Expr)) (otherwise : Expr) :
    (casesOf subject branches otherwise).value? arguments values =
      (subject.value? arguments values).bind fun v =>
        (firstCaseOf? arguments values v branches).bind fun v? =>
          v?.or (otherwise.value? arguments values) := by
  rw [value?, onRow, evaluate, Result.toOption_bind]
  refine congrArg _ (funext fun v => ?_)
  rw [Result.toOption_bind]
  refine congrArg _ (funext fun v? => ?_)
  cases v? <;> rfl

theorem value?_isIn (value set : Expr) :
    (isIn value set).value? arguments values =
      (value.value? arguments values).bind fun v =>
        (set.value? arguments values).bind fun s =>
          s.items?.map fun items => .bool (v.isAmong items) := by
  rw [value?, onRow, evaluate, Result.toOption_bind]
  simp only [Result.toOption_bind, toOption_membership]
  rfl

/-- Both membership tests evaluate the value before the set. -/
theorem value?_contains (set value : Expr) :
    (contains set value).value? arguments values = (isIn value set).value? arguments values := by
  rw [value?_isIn, value?, onRow, evaluate, Result.toOption_bind]
  simp only [Result.toOption_bind, toOption_membership]
  rfl

/-- The items of a list that is built in place are the values of its items. -/
theorem items?_evaluate_array (items : List Expr) :
    ((array items).evaluate arguments).toOption.bind Value.items? =
      (evaluateAll arguments items).toOption := by
  rw [evaluate]
  cases evaluateAll arguments items <;> rfl

theorem toOption_evaluateAll_cons (e : Expr) (es : List Expr) :
    (evaluateAll arguments (e :: es)).toOption =
      (e.evaluate arguments).toOption.bind fun v =>
        (evaluateAll arguments es).toOption.map fun vs => v :: vs := by
  rw [evaluateAll, Result.toOption_bind]
  simp only [Result.toOption_bind, Option.map_eq_bind]
  rfl

theorem toOption_evaluateAll_concat (es : List Expr) (e : Expr) :
    (evaluateAll arguments (es ++ [e])).toOption =
      (evaluateAll arguments es).toOption.bind fun vs =>
        (e.evaluate arguments).toOption.map fun v => vs ++ [v] := by
  induction es with
  | nil =>
    rw [List.nil_append, toOption_evaluateAll_cons]
    cases (e.evaluate arguments).toOption <;> rfl
  | cons e' es ih =>
    rw [List.cons_append, toOption_evaluateAll_cons, toOption_evaluateAll_cons, ih]
    simp only [Option.bind_assoc, Option.map_eq_bind]
    rfl

theorem firstCase?_cons (test value : Expr) (rest : List (Expr × Expr)) :
    firstCase? arguments values ((test, value) :: rest) =
      (test.value? arguments values).bind fun v =>
        if v.isTrue then (value.value? arguments values).map some
        else firstCase? arguments values rest := by
  rw [firstCase?, onRowBranches, evaluateCases, Result.toOption_bind]
  refine congrArg _ (funext fun v => ?_)
  rw [apply_ite Except.toOption, Result.toOption_bind, Option.map_eq_bind]
  rfl

theorem firstCaseOf?_cons (subject : Value) (key value : Expr) (rest : List (Expr × Expr)) :
    firstCaseOf? arguments values subject ((key, value) :: rest) =
      (key.value? arguments values).bind fun v =>
        if subject.isEqual v then (value.value? arguments values).map some
        else firstCaseOf? arguments values subject rest := by
  rw [firstCaseOf?, onRowBranches, evaluateCasesOf, Result.toOption_bind]
  refine congrArg _ (funext fun v => ?_)
  rw [apply_ite Except.toOption, Result.toOption_bind, Option.map_eq_bind]
  rfl

end

end Expr

end NestedQuery
