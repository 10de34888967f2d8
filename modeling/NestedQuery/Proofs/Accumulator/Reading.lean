import NestedQuery.Proofs.Expr.Meaning
import NestedQuery.Resolution

/-!
# The value of an accumulator for a row

An accumulator is evaluated with the operator rules of expressions: `Reading.value?` computes its
value from what a `Reading` gives to its leaves. A parameter has its bound value, a column that of
the row, with its function applied; a membership list is a comma chain of leaves, of which an
expanded parameter stands for all its items. Aggregates fold many rows and have no value for one.
-/

namespace NestedQuery

/-- The values of parameters and of a row. -/
structure Reading where
  /-- The parameters. -/
  pool : Pool
  /-- Their values for one execution. -/
  bound : List Value
  /-- What the parameters of `select`s stand for. -/
  bindings : List Binding
  /-- The values of the row, by their paths from the shape. -/
  row : List String → Value

namespace Reading

variable (rd : Reading)

/-- The value of a leaf. -/
def leaf? : Symbol → Option Value
  | .param id => rd.bound[id]?
  | .column root path _ none => (qualify rd.bindings root path).toOption.map rd.row
  | .column root path _ (some function) =>
    ((qualify rd.bindings root path).toOption.map rd.row).bind (Value.call? function)

/-- The items of a membership list. -/
def items? : Accumulator Symbol → Option (List Value)
  | .binary .comma left right =>
    (items? left).bind fun vs => (items? right).map fun ws => vs ++ ws
  | .leaf (.param id) =>
    if rd.pool.isExpanded id then rd.bound[id]?.bind Value.items? else rd.bound[id]?.map ([·])
  | .leaf a => (rd.leaf? a).map ([·])
  | _ => none

mutual

/-- The value of an accumulator. -/
def value? : Accumulator Symbol → Option Value
  | .leaf a => rd.leaf? a
  | .binary .isIn left right =>
    (value? left).bind fun v => (rd.items? right).map fun items => .bool (v.isAmong items)
  | .binary .comma _ _ => none
  | .binary op left right =>
    (value? left).bind fun v => (value? right).bind fun w => Value.binary? op v w
  | .wrap .not operand => (value? operand).bind (Value.unary? .not)
  | .wrap .negate operand => (value? operand).bind (Value.unary? .negate)
  | .wrap (.apply function) operand => (value? operand).bind (Value.call? function)
  | .wrap (.aggregate _) _ => none
  | .cases branches otherwise =>
    (firstCase? branches).bind fun v? => v?.or (value? otherwise)
  | .casesOf subject branches otherwise =>
    (value? subject).bind fun v => (firstCaseOf? v branches).bind fun v? => v?.or (value? otherwise)

/-- The value of the first branch whose test holds; nothing if a step fails. -/
def firstCase? : List (Accumulator Symbol × Accumulator Symbol) → Option (Option Value)
  | [] => some none
  | (test, value) :: rest =>
    (value? test).bind fun v => if v.isTrue then (value? value).map some else firstCase? rest

/-- The value of the first branch whose key equals the subject; nothing if a step fails. -/
def firstCaseOf? (subject : Value) :
    List (Accumulator Symbol × Accumulator Symbol) → Option (Option Value)
  | [] => some none
  | (key, value) :: rest =>
    (value? key).bind fun v =>
      if subject.isEqual v then (value? value).map some else firstCaseOf? subject rest

end

theorem value?_binary {op : BinaryOp} (hin : op ≠ .isIn) (hcomma : op ≠ .comma)
    (left right : Accumulator Symbol) :
    rd.value? (.binary op left right) =
      (rd.value? left).bind fun v => (rd.value? right).bind fun w => Value.binary? op v w := by
  cases op <;> first | rfl | exact absurd rfl hin | exact absurd rfl hcomma

/-- A case without branches is its alternative. -/
theorem value?_cases_nil (otherwise : Accumulator Symbol) :
    rd.value? (.cases [] otherwise) = rd.value? otherwise := by
  rw [value?, firstCase?, Option.bind_some, Option.none_or]

/-- A case takes its first branch, or it goes on like the case of the other branches. -/
theorem value?_cases_cons (test value : Accumulator Symbol)
    (rest : List (Accumulator Symbol × Accumulator Symbol)) (otherwise : Accumulator Symbol) :
    rd.value? (.cases ((test, value) :: rest) otherwise) =
      (rd.value? test).bind fun v =>
        if v.isTrue then rd.value? value else rd.value? (.cases rest otherwise) := by
  rw [value?, firstCase?, Option.bind_assoc]
  refine congrArg _ (funext fun v => ?_)
  split
  · cases rd.value? value <;> rfl
  · rw [value?]

/-- A function in a leaf is a function of the leaf. -/
theorem leaf?_function (root : Root) (path : List String) (into : Option TableId)
    (function : Function) :
    rd.leaf? (.column root path into (some function)) =
      (rd.leaf? (.column root path into none)).bind (Value.call? function) :=
  rfl

end Reading

end NestedQuery
