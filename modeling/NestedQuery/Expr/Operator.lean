/-!
# Operators and functions

The operators of mapping expressions, with their spelling in the text of an expression
(`BinaryOp.symbol`, `Aggregate.method`, `Function.method`), their binding strength, and the names
of the functions in SQL (`Aggregate.sqlName`, `Function.sqlName`).
-/

namespace NestedQuery

/-- The operators between two operands. -/
inductive BinaryOp where
  /-- Addition, or joining two texts. -/
  | add
  /-- Subtraction. -/
  | sub
  /-- Multiplication. -/
  | mul
  /-- Division; of integers, cut towards zero. -/
  | div
  /-- The remainder of a division that is cut towards zero. -/
  | mod
  /-- Equality. -/
  | eq
  /-- Difference. -/
  | ne
  /-- Less than. -/
  | lt
  /-- At most. -/
  | le
  /-- Greater than. -/
  | gt
  /-- At least. -/
  | ge
  /-- Both. -/
  | and
  /-- At least one of two. -/
  | or
  /-- Membership: the right operand is a list. -/
  | isIn
  /-- Separates the items of such a list. -/
  | comma
  deriving Repr, DecidableEq

namespace BinaryOp

/-- How an operator is written in the text of an expression. -/
def symbol : BinaryOp → String
  | add => "+"
  | sub => "-"
  | mul => "*"
  | div => "/"
  | mod => "%"
  | eq => "=="
  | ne => "!="
  | lt => "<"
  | le => "<="
  | gt => ">"
  | ge => ">="
  | and => "&&"
  | or => "||"
  | isIn => "in"
  | comma => ","

/-- The binding strength; a greater number binds tighter. -/
def precedence : BinaryOp → Nat
  | comma => 0
  | or => 1
  | and => 2
  | eq | ne | isIn => 3
  | lt | le | gt | ge => 4
  | add | sub => 5
  | mul | div | mod => 6

/-- Whether the operator compares its operands. -/
def isComparison : BinaryOp → Bool
  | eq | ne | lt | le | gt | ge => true
  | _ => false

/-- Whether the result is a truth value. -/
def isBoolean (op : BinaryOp) : Bool :=
  op.isComparison || op == and || op == or || op == isIn

end BinaryOp

/-- The operators before one operand. -/
inductive UnaryOp where
  /-- Negation of a truth value. -/
  | not
  /-- Negation of a number. -/
  | negate
  deriving Repr, DecidableEq

/-- Functions that fold many rows into one value. -/
inductive Aggregate where
  /-- The number of rows. -/
  | count
  /-- The sum. -/
  | sum
  /-- The mean. -/
  | avg
  /-- The least value. -/
  | min
  /-- The greatest value. -/
  | max
  deriving Repr, DecidableEq

namespace Aggregate

/-- The function's name in SQL. -/
def sqlName : Aggregate → String
  | count => "COUNT"
  | sum => "SUM"
  | avg => "AVG"
  | min => "MIN"
  | max => "MAX"

/-- The function's name in the text of an expression. -/
def method : Aggregate → String
  | count => "count"
  | sum => "sum"
  | avg => "avg"
  | min => "min"
  | max => "max"

/-- Whether a repeated row changes the result. -/
def countsDuplicates : Aggregate → Bool
  | count | sum | avg => true
  | min | max => false

end Aggregate

/-- Functions of one value. -/
inductive Function where
  /-- Capital letters. -/
  | upper
  /-- Small letters. -/
  | lower
  /-- The number of characters, or of bytes. -/
  | length
  /-- The absolute value. -/
  | abs
  deriving Repr, DecidableEq

namespace Function

/-- The function's name in SQL. -/
def sqlName : Function → String
  | upper => "UPPER"
  | lower => "LOWER"
  | length => "LENGTH"
  | abs => "ABS"

/-- The function's name in the text of an expression. -/
def method : Function → String
  | upper => "upper"
  | lower => "lower"
  | length => "length"
  | abs => "abs"

end Function

end NestedQuery
