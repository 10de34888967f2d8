import NestedQuery.Expr.Basic
import NestedQuery.Value.Argument
import NestedQuery.Value.Operation

/-!
# Evaluation

`Expr.evaluate` computes an expression that reads no row from the arguments of an execution.
Members of the arguments are followed by `Expr.navigate`; operators and functions are those of
values, and an operator that does not apply to its operands is an error that names the
expression. Operands are evaluated from left to right, except that a membership test evaluates
its value before its set; a case evaluates no branch after the one it takes.
-/

namespace NestedQuery.Expr

/-- The operator in `e` does not apply to its operands. -/
def operandTypes (e : Expr) : Error :=
  .unbindable (.operandTypes e.text)

/-- The member of the arguments that a chain of members names. -/
def navigate (arguments : Document) : Expr → Result Document
  | args => .ok arguments
  | member base name => do
    let parent ← base.navigate arguments
    match parent.member? name with
    | some d => .ok d
    | none => .error (.unbindable (.missingArgument (member base name).text))
  | e => .error (.unsupported e.text .notAnArgument)

/-- The result of an operation, or the error that `e` does not apply. -/
def orOperandTypes (e : Expr) : Option Value → Result Value
  | some v => .ok v
  | none => .error e.operandTypes

/-- Whether a value is in a set, which must be a list. -/
def membership (e : Expr) (value : Value) : Value → Result Value
  | .list items => .ok (.bool (value.isAmong items))
  | _ => .error e.operandTypes

mutual

/-- The value of an expression. -/
def evaluate (arguments : Document) : Expr → Result Value
  | constant value => .ok value
  | args => Value.ofDocument arguments
  | member base name => do Value.ofDocument (← (member base name).navigate arguments)
  | row => .error (.invariant (.needsRow row.text))
  | var name => .error (.invariant (.needsRow (var name).text))
  | unary op operand => do
    let v ← operand.evaluate arguments
    (unary op operand).orOperandTypes (Value.unary? op v)
  | binary op left right => do
    let v ← left.evaluate arguments
    let w ← right.evaluate arguments
    (binary op left right).orOperandTypes (Value.binary? op v w)
  | tuple items | array items => return .list (← evaluateAll arguments items)
  | object members => .error (.unsupported (object members).text .objectParameter)
  | conditional test ifTrue ifFalse => do
    if (← test.evaluate arguments).isTrue then ifTrue.evaluate arguments
    else ifFalse.evaluate arguments
  | cases branches otherwise => do
    match ← evaluateCases arguments branches with
    | some v => .ok v
    | none => otherwise.evaluate arguments
  | casesOf subject branches otherwise => do
    let v ← subject.evaluate arguments
    match ← evaluateCasesOf arguments v branches with
    | some w => .ok w
    | none => otherwise.evaluate arguments
  | isIn value set => do
    let v ← value.evaluate arguments
    let s ← set.evaluate arguments
    (isIn value set).membership v s
  | contains set value => do
    let v ← value.evaluate arguments
    let s ← set.evaluate arguments
    (contains set value).membership v s
  | apply function operand => do
    let v ← operand.evaluate arguments
    (apply function operand).orOperandTypes (Value.call? function v)
  | e => .error (.unsupported e.text .methodParameter)

/-- The values of several expressions, or the first failure. -/
def evaluateAll (arguments : Document) : List Expr → Result (List Value)
  | [] => return []
  | e :: es => return (← e.evaluate arguments) :: (← evaluateAll arguments es)

/-- The value of the first branch whose test holds. -/
def evaluateCases (arguments : Document) : List (Expr × Expr) → Result (Option Value)
  | [] => return none
  | (test, value) :: rest => do
    if (← test.evaluate arguments).isTrue then return some (← value.evaluate arguments)
    else evaluateCases arguments rest

/-- The value of the first branch whose key equals the subject. -/
def evaluateCasesOf (arguments : Document) (subject : Value) :
    List (Expr × Expr) → Result (Option Value)
  | [] => return none
  | (key, value) :: rest => do
    if subject.isEqual (← key.evaluate arguments) then return some (← value.evaluate arguments)
    else evaluateCasesOf arguments subject rest

end

end NestedQuery.Expr
