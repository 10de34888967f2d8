import NestedQuery.Accumulator.Aggregation
import NestedQuery.Mapping.Collection
import NestedQuery.Mapping.Operand

/-!
# Compiling mappings

`compile` turns a mapping expression into outputs and mapped tables over a statement, by recursion
on the expression. A constant or an expression over the arguments becomes a parameter; member
chains become column leaves; operators take their operands one after another; a `select` binds its
parameter to the chain that it ranges over; constructions put each part below its step.

`compileMapping` compiles a projection, `compileCondition` a join condition, filter or ordering
key.
-/

namespace NestedQuery

open Compile

/-! ### Branches -/

/-- The branches of a case with their tables, and the type of the first. -/
structure CompiledBranches where
  /-- The branches. -/
  branches : List (Accumulator Symbol × Accumulator Symbol) := []
  /-- The type of the first branch's value. -/
  type? : Option ValueType := none
  /-- The tables. -/
  tables : List MappedTable := []

/-- One more branch in front. -/
def CompiledBranches.cons (test value : Operand) (bs : CompiledBranches) : CompiledBranches :=
  ⟨(test.value, value.value) :: bs.branches, some value.type,
    test.tables ++ value.tables ++ bs.tables⟩

/-- The alternative `e` of the conditional `whole`: its further branches, or the operand that
`action` compiles. -/
def alternative (s : Statement) (whole e : Expr) (action : Compile Compiled)
    (further? : Option (Compile (CompiledBranches × Operand))) :
    Compile (CompiledBranches × Operand) :=
  match further? with
  | some further => further
  | none => return ({}, ← operandOf s whole e action)

/-! ### The compiler -/

mutual

/-- The outputs and mapped tables of an expression. -/
def compile (s : Statement) (scope : Scope) (e : Expr) : Compile Compiled := do
  if e.isParameter then compileParameter e
  else
    match e with
    | .row => compileChain s .row []
    | .var name =>
      match scope.locals.lookup name with
      | some b => compileChain s (.binding b) []
      | none => throw (.invariant (.unboundVariable name))
    | .args => compileParameter .args
    | .constant v => compileParameter (.constant v)
    | .member base name => do
      let c ← within (.member base name) (compile s scope base)
      compileMember s (.member base name) base name c
    | .unary op operand => do
      let o ← operandOf s (.unary op operand) operand (compile s scope operand)
      match op with
      | .not => return .ofValue (.wrap .not o.value) .bool o.tables
      | .negate => return .ofValue (.wrap .negate o.value) o.type o.tables
    | .binary .isIn left right => do
      let o ← operandOf s (.binary .isIn left right) left (compile s scope left)
      compileMembership o right
    | .binary .comma left right => refuse (.binary .comma left right) .strayComma
    | .binary op left right => do
      let l ← operandOf s (.binary op left right) left (compile s scope left)
      let r ← operandOf s (.binary op left right) right (compile s scope right)
      let type := if op.isBoolean then .bool else l.type.widen r.type
      return .ofValue (.binary op l.value r.value) type (l.tables ++ r.tables)
    | .tuple items => compileItems s scope (.tuple items) 0 items
    | .array items => compileItems s scope (.array items) 0 items
    | .object members => compileMembers s scope (.object members) members
    | .conditional test ifTrue ifFalse => do
      let whole := .conditional test ifTrue ifFalse
      let t ← operandOf s whole test (compile s scope test)
      let v ← operandOf s whole ifTrue (compile s scope ifTrue)
      let (bs, o) ← alternative s whole ifFalse (compile s scope ifFalse)
        (compileElse s scope whole ifFalse)
      let bs := bs.cons t v
      return .ofValue (.cases bs.branches o.value) v.type (bs.tables ++ o.tables)
    | .cases branches otherwise => do
      let whole := .cases branches otherwise
      let bs ← compileBranches s scope whole branches
      let o ← operandOf s whole otherwise (compile s scope otherwise)
      return .ofValue (.cases bs.branches o.value) (bs.type?.getD o.type) (bs.tables ++ o.tables)
    | .casesOf subject branches otherwise => do
      let whole := .casesOf subject branches otherwise
      let k ← operandOf s whole subject (compile s scope subject)
      let bs ← compileBranches s scope whole branches
      let o ← operandOf s whole otherwise (compile s scope otherwise)
      return .ofValue (.casesOf k.value bs.branches o.value) (bs.type?.getD o.type)
        (k.tables ++ bs.tables ++ o.tables)
    | .aggregate function source => do
      let inner := { scope with beneath := true }
      let c ← within (.aggregate function source) (compile s inner source)
      compileAggregate s scope (.aggregate function source) function c
    | .apply function operand => do
      let o ← operandOf s (.apply function operand) operand (compile s scope operand)
      return compileFunction function o
    | .select source param body => do
      let whole := .select source param body
      let c ← within whole (compile s scope source)
      let range ← compileRange s whole c
      let inner := range.scope scope param
      let b ← within whole do expandWhole s inner (← compile s inner body)
      return range.result s scope b
    | .toList source => within (.toList source) do expandWhole s scope (← compile s scope source)
    | .one source => do
      let c ← within (.one source) do expandWhole s scope (← compile s scope source)
      compileOne (.one source) c
    | .rowNumber => return compileRowNumber s scope
    | .isIn value set => do
      let o ← operandOf s (.isIn value set) value (compile s scope value)
      compileMembership o set
    | .contains set value => do
      let o ← operandOf s (.contains set value) value (compile s scope value)
      compileMembership o set
    | .method receiver name arguments =>
      refuse (.method receiver name arguments) (.unknownMethod name)
termination_by structural e

/-- The items of a construction `whole`, each below its position; `index` is the first one's. -/
def compileItems (s : Statement) (scope : Scope) (whole : Expr) (index : Nat) :
    List Expr → Compile Compiled
  | [] => return {}
  | e :: es => do
    let c ← within whole do expandWhole s scope (← compile s scope e)
    return c.under (.arg index) ++ (← compileItems s scope whole (index + 1) es)
termination_by structural es => es

/-- The members of a construction `whole`, each below its name. -/
def compileMembers (s : Statement) (scope : Scope) (whole : Expr) :
    List (String × Expr) → Compile Compiled
  | [] => return {}
  | (name, e) :: es => do
    let c ← within whole do expandWhole s scope (← compile s scope e)
    return c.under (.field name) ++ (← compileMembers s scope whole es)
termination_by structural es => es

/-- The branches of the case `whole`. -/
def compileBranches (s : Statement) (scope : Scope) (whole : Expr) :
    List (Expr × Expr) → Compile CompiledBranches
  | [] => return {}
  | (test, value) :: rest => do
    let t ← operandOf s whole test (compile s scope test)
    let v ← operandOf s whole value (compile s scope value)
    return (← compileBranches s scope whole rest).cons t v
termination_by structural bs => bs

/-- The further branches of the conditional `whole`, if its alternative is a conditional. -/
def compileElse (s : Statement) (scope : Scope) (whole : Expr) :
    Expr → Option (Compile (CompiledBranches × Operand))
  | .conditional test ifTrue ifFalse => some do
    let t ← operandOf s whole test (compile s scope test)
    let v ← operandOf s whole ifTrue (compile s scope ifTrue)
    let (bs, o) ← alternative s whole ifFalse (compile s scope ifFalse)
      (compileElse s scope whole ifFalse)
    return (bs.cons t v, o)
  | _ => none
termination_by structural e => e

end

/-- The result of an expression in a place where a value may have members. -/
def compileValue (s : Statement) (scope : Scope) (e : Expr) : Compile Compiled := do
  expandWhole s scope (← compile s scope e)

/-! ### Mappings and conditions -/

/-- The compiled projection of a query. It may be a value, an object, a whole table or the whole
shape. -/
def compileMapping (s : Statement) (e : Expr) : Compile Compiled :=
  compileValue s .outermost e

/-- A condition or an ordering key: one value without aggregates. -/
def compileCondition (s : Statement) (e : Expr) : Compile (Accumulator Symbol) := do
  let o ← toOperand s e (← compile s .outermost e)
  if o.value.aggregation Symbol.isParam = .none then return o.value
  else refuse e .aggregateInCondition

end NestedQuery
