import NestedQuery.Expr.Operator
import NestedQuery.Value.Basic

/-!
# Mapping expressions

An `Expr` says what a query computes from one row of its shape: members of the row, arguments of
the execution, constants, operators, and the construction of nested results. `Expr.text` writes
an expression the way a reader would, `Expr.readsRow` and `Expr.readsArgs` say what its value
hangs on, and `Expr.same` is equality of expressions.
-/

namespace NestedQuery

/-- An expression of the mapping language. -/
inductive Expr where
  /-- The row of the query's shape. -/
  | row
  /-- The arguments of the execution. -/
  | args
  /-- The parameter of an enclosing `select`. -/
  | var (name : String)
  /-- A constant. -/
  | constant (value : Value)
  /-- A member of an object. -/
  | member (base : Expr) (name : String)
  /-- An operator before one operand. -/
  | unary (op : UnaryOp) (operand : Expr)
  /-- An operator between two operands. -/
  | binary (op : BinaryOp) (left right : Expr)
  /-- A tuple: values by position. -/
  | tuple (items : List Expr)
  /-- A list built in place. -/
  | array (items : List Expr)
  /-- An object built in place. -/
  | object (members : List (String × Expr))
  /-- One of two values, by a test. -/
  | conditional (test ifTrue ifFalse : Expr)
  /-- The value of the first branch whose test holds. -/
  | cases (branches : List (Expr × Expr)) (otherwise : Expr)
  /-- The value of the first branch whose key equals the subject. -/
  | casesOf (subject : Expr) (branches : List (Expr × Expr)) (otherwise : Expr)
  /-- Many rows folded into one value. -/
  | aggregate (function : Aggregate) (source : Expr)
  /-- A function of one value. -/
  | apply (function : Function) (operand : Expr)
  /-- A value for every row of a collection. -/
  | select (source : Expr) (param : String) (body : Expr)
  /-- A collection as a list. -/
  | toList (source : Expr)
  /-- The only element of a collection. -/
  | one (source : Expr)
  /-- The number of the current row. -/
  | rowNumber
  /-- Whether a value is in a set. -/
  | isIn (value set : Expr)
  /-- Whether a set contains a value. -/
  | contains (set value : Expr)
  /-- A method that has no meaning in SQL. -/
  | method (receiver : Expr) (name : String) (arguments : List Expr)

instance : Inhabited Expr := ⟨.row⟩

namespace Expr

/-! ### Text -/

/-- Texts separated by commas. -/
def commas (texts : List String) : String :=
  String.intercalate ", " texts

mutual

/-- The text of an expression. Binary operators are always bracketed. -/
def text : Expr → String
  | row => "q"
  | args => "args"
  | var name => name
  | constant value => value.display
  | member base name => base.text ++ "." ++ name
  | unary .not operand => "!" ++ operand.text
  | unary .negate operand => "-" ++ operand.text
  | binary op left right => "(" ++ left.text ++ " " ++ op.symbol ++ " " ++ right.text ++ ")"
  | tuple items => "(" ++ commas (texts items) ++ ")"
  | array items => "[" ++ commas (texts items) ++ "]"
  | object members => "\x7b " ++ commas (memberTexts members) ++ " \x7d"
  | conditional test ifTrue ifFalse =>
    "(" ++ test.text ++ " ? " ++ ifTrue.text ++ " : " ++ ifFalse.text ++ ")"
  | cases branches otherwise =>
    "case" ++ String.join (branchTexts branches) ++ " else " ++ otherwise.text ++ " end"
  | casesOf subject branches otherwise =>
    "case " ++ subject.text ++ String.join (branchTexts branches) ++ " else " ++ otherwise.text
      ++ " end"
  | aggregate function source => source.text ++ "." ++ function.method ++ "()"
  | apply function operand => operand.text ++ "." ++ function.method ++ "()"
  | select source param body => source.text ++ ".select(" ++ param ++ " => " ++ body.text ++ ")"
  | toList source => source.text ++ ".to_list()"
  | one source => source.text ++ ".one()"
  | rowNumber => "row_number()"
  | isIn value set => value.text ++ ".is_in(" ++ set.text ++ ")"
  | contains set value => set.text ++ ".contains(" ++ value.text ++ ")"
  | method receiver name arguments =>
    receiver.text ++ "." ++ name ++ "(" ++ commas (texts arguments) ++ ")"

/-- The texts of several expressions. -/
def texts : List Expr → List String
  | [] => []
  | e :: es => e.text :: texts es

/-- The texts of named members. -/
def memberTexts : List (String × Expr) → List String
  | [] => []
  | (name, e) :: es => (name ++ ": " ++ e.text) :: memberTexts es

/-- The texts of the branches of a case. -/
def branchTexts : List (Expr × Expr) → List String
  | [] => []
  | (test, value) :: bs => (" when " ++ test.text ++ " then " ++ value.text) :: branchTexts bs

end

/-! ### What an expression reads -/

mutual

/-- Whether the expression mentions the row, a parameter of a `select` (which always stands for
row data), a row number or a `select`. -/
def readsRow : Expr → Bool
  | row | var _ | rowNumber | select .. => true
  | args | constant _ => false
  | member base _ => base.readsRow
  | unary _ operand => operand.readsRow
  | binary _ left right => left.readsRow || right.readsRow
  | tuple items | array items => anyReadsRow items
  | object members => anyMemberReadsRow members
  | conditional test ifTrue ifFalse => test.readsRow || ifTrue.readsRow || ifFalse.readsRow
  | cases branches otherwise => anyBranchReadsRow branches || otherwise.readsRow
  | casesOf subject branches otherwise =>
    subject.readsRow || anyBranchReadsRow branches || otherwise.readsRow
  | aggregate _ source => source.readsRow
  | apply _ operand => operand.readsRow
  | toList source | one source => source.readsRow
  | isIn value set | contains set value => value.readsRow || set.readsRow
  | method receiver _ arguments => receiver.readsRow || anyReadsRow arguments

/-- Whether one of several expressions reads the row. -/
def anyReadsRow : List Expr → Bool
  | [] => false
  | e :: es => e.readsRow || anyReadsRow es

/-- Whether one of several members reads the row. -/
def anyMemberReadsRow : List (String × Expr) → Bool
  | [] => false
  | (_, e) :: es => e.readsRow || anyMemberReadsRow es

/-- Whether a branch reads the row. -/
def anyBranchReadsRow : List (Expr × Expr) → Bool
  | [] => false
  | (test, value) :: bs => test.readsRow || value.readsRow || anyBranchReadsRow bs

end

mutual

/-- Whether the expression mentions the arguments. -/
def readsArgs : Expr → Bool
  | args => true
  | row | var _ | constant _ | rowNumber => false
  | member base _ => base.readsArgs
  | unary _ operand => operand.readsArgs
  | binary _ left right => left.readsArgs || right.readsArgs
  | tuple items | array items => anyReadsArgs items
  | object members => anyMemberReadsArgs members
  | conditional test ifTrue ifFalse => test.readsArgs || ifTrue.readsArgs || ifFalse.readsArgs
  | cases branches otherwise => anyBranchReadsArgs branches || otherwise.readsArgs
  | casesOf subject branches otherwise =>
    subject.readsArgs || anyBranchReadsArgs branches || otherwise.readsArgs
  | aggregate _ source => source.readsArgs
  | apply _ operand => operand.readsArgs
  | select source _ body => source.readsArgs || body.readsArgs
  | toList source | one source => source.readsArgs
  | isIn value set | contains set value => value.readsArgs || set.readsArgs
  | method receiver _ arguments => receiver.readsArgs || anyReadsArgs arguments

/-- Whether one of several expressions reads the arguments. -/
def anyReadsArgs : List Expr → Bool
  | [] => false
  | e :: es => e.readsArgs || anyReadsArgs es

/-- Whether one of several members reads the arguments. -/
def anyMemberReadsArgs : List (String × Expr) → Bool
  | [] => false
  | (_, e) :: es => e.readsArgs || anyMemberReadsArgs es

/-- Whether a branch reads the arguments. -/
def anyBranchReadsArgs : List (Expr × Expr) → Bool
  | [] => false
  | (test, value) :: bs => test.readsArgs || value.readsArgs || anyBranchReadsArgs bs

end

/-! ### Equality -/

mutual

/-- Whether two expressions are the same, their constants compared by `Value.same`. -/
def same : Expr → Expr → Bool
  | row, row | args, args | rowNumber, rowNumber => true
  | var m, var n => m == n
  | constant v, constant w => v.same w
  | member e m, member f n => e.same f && m == n
  | unary o e, unary p f => o == p && e.same f
  | binary o e e', binary p f f' => o == p && e.same f && e'.same f'
  | tuple es, tuple fs | array es, array fs => sameAll es fs
  | object es, object fs => sameMembers es fs
  | conditional e₁ e₂ e₃, conditional f₁ f₂ f₃ => e₁.same f₁ && e₂.same f₂ && e₃.same f₃
  | cases bs e, cases cs f => sameBranches bs cs && e.same f
  | casesOf s bs e, casesOf t cs f => s.same t && sameBranches bs cs && e.same f
  | aggregate o e, aggregate p f => o == p && e.same f
  | apply o e, apply p f => o == p && e.same f
  | select e m e', select f n f' => e.same f && m == n && e'.same f'
  | toList e, toList f | one e, one f => e.same f
  | isIn e e', isIn f f' | contains e e', contains f f' => e.same f && e'.same f'
  | method e m es, method f n fs => e.same f && m == n && sameAll es fs
  | _, _ => false

/-- Whether two lists hold the same expressions at the same places. -/
def sameAll : List Expr → List Expr → Bool
  | [], [] => true
  | e :: es, f :: fs => e.same f && sameAll es fs
  | _, _ => false

/-- Whether two lists hold the same members in the same order. -/
def sameMembers : List (String × Expr) → List (String × Expr) → Bool
  | [], [] => true
  | (m, e) :: es, (n, f) :: fs => m == n && e.same f && sameMembers es fs
  | _, _ => false

/-- Whether two lists hold the same branches in the same order. -/
def sameBranches : List (Expr × Expr) → List (Expr × Expr) → Bool
  | [], [] => true
  | (e, e') :: bs, (f, f') :: cs => e.same f && e'.same f' && sameBranches bs cs
  | _, _ => false

end

end Expr

end NestedQuery
