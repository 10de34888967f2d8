import NestedQuery.Expr.Operator
import NestedQuery.Text.LetterCase
import NestedQuery.Value.Basic

/-!
# Operations on values

What the operators and functions of mapping expressions do to values when no database is asked:
`Value.compare?`, `Value.unary?`, `Value.binary?` and `Value.call?`. Each yields nothing if it
does not apply to its operands. A null operand makes the result null. Integer arithmetic is
exact: a result that has no 64-bit form is no result. An integer meets a real as the nearest
real.
-/

namespace NestedQuery.Value

/-- Whether a value counts as true in a test. -/
def isTrue : Value → Bool
  | bool b => b
  | integer i => i != 0
  | _ => false

/-! ### Comparison -/

/-- The order of two reals, unless one is not a number. -/
def compareReals? (x y : Float) : Option Ordering :=
  if x < y then some .lt else if x == y then some .eq else if y < x then some .gt else none

/-- The order of two values of one kind, or of an integer and a real. Texts are in the order of
their code points, bytes in lexicographic order, and false comes before true. -/
def compare? : Value → Value → Option Ordering
  | integer i, integer j => some (compareOfLessAndEq i j)
  | integer i, real y => compareReals? (Number.floatOfInt64 i) y
  | real x, integer j => compareReals? x (Number.floatOfInt64 j)
  | real x, real y => compareReals? x y
  | text s, text t => some (compareOfLessAndEq s t)
  | bool b, bool c => some (compare b c)
  | blob b, blob c => some (List.compareLex compare b c)
  | _, _ => none

/-- Whether two values are equal in a comparison. -/
def isEqual (v w : Value) : Bool :=
  v.compare? w == some .eq

/-- Whether a comparison operator accepts an order. -/
def accepts : BinaryOp → Ordering → Bool
  | .eq, o => o == .eq
  | .ne, o => o != .eq
  | .lt, o => o == .lt
  | .le, o => o != .gt
  | .gt, o => o == .gt
  | .ge, o => o != .lt
  | _, _ => false

/-! ### Arithmetic -/

/-- An arithmetic operation on integers, unless its result or its quotient has no 64-bit form or
it divides by zero. -/
def integerResult? (op : BinaryOp) (i j : Int) : Option Int64 :=
  match op with
  | .add => Number.int64? (i + j)
  | .sub => Number.int64? (i - j)
  | .mul => Number.int64? (i * j)
  | .div => if j = 0 then none else Number.int64? (i.tdiv j)
  | .mod =>
    if j = 0 then none
    else (Number.int64? (i.tdiv j)).bind fun _ => Number.int64? (i.tmod j)
  | _ => none

/-- An arithmetic operation on reals. -/
def realResult? (op : BinaryOp) (x y : Float) : Option Float :=
  match op with
  | .add => some (x + y)
  | .sub => some (x - y)
  | .mul => some (x * y)
  | .div => some (x / y)
  | .mod => some (Number.remainder x y)
  | _ => none

/-- A number as a real. -/
def toReal? : Value → Option Float
  | integer i => some (Number.floatOfInt64 i)
  | real x => some x
  | _ => none

/-- An arithmetic operation on two values. -/
def arithmetic? (op : BinaryOp) : Value → Value → Option Value
  | text s, text t => if op = .add then some (text (s ++ t)) else none
  | integer i, integer j => (integerResult? op i.toInt j.toInt).map integer
  | v, w => do
    let x ← v.toReal?
    let y ← w.toReal?
    (realResult? op x y).map real

/-! ### Operators and functions -/

/-- A binary operator. -/
def binary? (op : BinaryOp) (v w : Value) : Option Value :=
  if v.isNull || w.isNull then some null
  else if op.isComparison then (v.compare? w).map fun o => bool (accepts op o)
  else
    match op with
    | .and => some (bool (v.isTrue && w.isTrue))
    | .or => some (bool (v.isTrue || w.isTrue))
    | op => arithmetic? op v w

/-- A unary operator. -/
def unary? : UnaryOp → Value → Option Value
  | _, null => some null
  | .not, bool b => some (bool (!b))
  | .not, integer i => some (bool (i == 0))
  | .negate, integer i => (Number.int64? (-i.toInt)).map integer
  | .negate, real x => some (real (-x))
  | _, _ => none

/-- A function. The length of a text is its number of characters. -/
def call? : Function → Value → Option Value
  | _, null => some null
  | .upper, text s => some (text (Text.upper s))
  | .lower, text s => some (text (Text.lower s))
  | .length, text s => some (integer (Int64.ofInt s.length))
  | .length, blob bytes => some (integer (Int64.ofInt bytes.length))
  | .abs, integer i => (Number.int64? i.toInt.natAbs).map integer
  | .abs, real x => some (real x.abs)
  | _, _ => none

/-- Whether a value equals an item of a list. -/
def isAmong (v : Value) (items : List Value) : Bool :=
  items.any v.isEqual

end NestedQuery.Value
