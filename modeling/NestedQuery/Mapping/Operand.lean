import NestedQuery.Mapping.Chain

/-!
# Operands

An operator takes `Operand`s: single values, with the tables that their expressions range over. A
constant or an expression over the arguments is a parameter (`compileParameter`); any other
result is an operand if it is one value and no whole table or shape (`toOperand`). The set of a
membership test is no operand: its items are parameters, or it is one parameter that is a list
(`membershipList`).
-/

namespace NestedQuery

open Compile

/-! ### Parameters -/

/-- Whether an expression that reads no row becomes one parameter. Constructions keep their
structure, and operations on collections have rules of their own. -/
def Expr.isParameter (e : Expr) : Bool :=
  match e with
  | .object _ | .tuple _ | .array _ | .aggregate .. | .select .. | .toList _ | .one _
  | .rowNumber | .method .. => false
  | e => !e.readsRow

/-- The parameter for an expression that reads no row. Constants are computed now, expressions
over the arguments at each execution. -/
def registerParameter (e : Expr) : Compile (ParamId × ValueType) := do
  if e.readsArgs then
    return (← register (.deferred e), .any)
  else
    let v ← within e (ofResult (e.evaluate .null))
    return (← register (.value v), v.type)

/-- The value that is a parameter. -/
def compileParameter (e : Expr) : Compile Compiled := do
  let (id, type) ← registerParameter e
  return .ofValue (.leaf (.param id)) type

/-! ### Operands -/

/-- A single value that an operator can take, with the tables its expression ranges over. -/
structure Operand where
  /-- The value. -/
  value : Accumulator Symbol
  /-- Its type. -/
  type : ValueType
  /-- The tables. -/
  tables : List MappedTable

/-- The result of `e` as an operand. -/
def toOperand (s : Statement) (e : Expr) (c : Compiled) : Compile Operand := do
  match ← whole? s c with
  | some (.shape, _) => refuse e .shapeAsValue
  | some (.table .., _) => refuse e .tableAsValue
  | none =>
    match c.value? with
    | some o => return ⟨o.value, o.type, c.tables⟩
    | none => refuse e .structureAsValue

/-- The operand `child` of `parent`, whose compilation is `action`. -/
def operandOf (s : Statement) (parent child : Expr) (action : Compile Compiled) :
    Compile Operand := do
  let c ← within parent action
  within parent (toOperand s child c)

/-! ### Functions -/

/-- The type of a function of values of a type. -/
def Function.type : Function → ValueType → ValueType
  | .upper, _ | .lower, _ => .text
  | .length, _ => .integer
  | .abs, t => t

/-- A function of an operand. A plain column carries it in its leaf. -/
def compileFunction (function : Function) (operand : Operand) : Compiled :=
  let value :=
    match operand.value with
    | .leaf (.column root path into none) => .leaf (.column root path into (some function))
    | v => .wrap (.apply function) v
  .ofValue value (function.type operand.type) operand.tables

/-! ### Membership -/

/-- The parameter for one item of a membership list. -/
def membershipItem (item : Expr) : Compile (Accumulator Symbol) := do
  if item.readsRow then throw (.rowInMembership item.text)
  else return .leaf (.param (← registerParameter item).1)

/-- The items of a membership list behind `list`, separated by commas. -/
def membershipItems (list : Accumulator Symbol) : List Expr → Compile (Accumulator Symbol)
  | [] => return list
  | item :: items => do
    membershipItems (.binary .comma list (← membershipItem item)) items

/-- The list of a membership test: the items of an array, or one parameter that is a list. -/
def membershipList : Expr → Compile (Accumulator Symbol)
  | .array [] => do
    let id ← register (.value (.list []))
    markExpanded id
    return .leaf (.param id)
  | .array (item :: items) => do membershipItems (← membershipItem item) items
  | set => do
    if set.readsRow then throw (.rowInMembership set.text)
    else
      let (id, _) ← registerParameter set
      markExpanded id
      return .leaf (.param id)

/-- The test whether an operand is in a set. -/
def compileMembership (value : Operand) (set : Expr) : Compile Compiled := do
  return .ofValue (.binary .isIn value.value (← membershipList set)) .bool value.tables

end NestedQuery
