import NestedQuery.Expr.Operator

/-!
# Accumulators

An `Accumulator` is the tree of one SQL value: operators, aggregates and cases over leaves of any
kind. Its leaves are columns relative to the mapping before resolution and columns of the
statement after it; `Accumulator.traverse` is the step from one kind to the other.

Three views list what a tree holds from left to right: `leaves`, `visit` (each leaf with whether
it lies beneath an aggregate) and `aggregates` (each aggregate with its operand, outermost first).
-/

namespace NestedQuery

/-- The operators of an accumulator over one operand. -/
inductive Wrapper where
  /-- Negation of a truth value. -/
  | not
  /-- Negation of a number. -/
  | negate
  /-- An aggregate. -/
  | aggregate (function : Aggregate)
  /-- A function of one value. -/
  | apply (function : Function)
  deriving Repr, DecidableEq

/-- Whether the operator is an aggregate. -/
def Wrapper.isAggregate : Wrapper → Bool
  | aggregate _ => true
  | _ => false

/-- A tree of one SQL value over leaves of type `α`. -/
inductive Accumulator (α : Type) where
  /-- A leaf. -/
  | leaf (a : α)
  /-- An operator between two operands. -/
  | binary (op : BinaryOp) (left right : Accumulator α)
  /-- An operator over one operand. -/
  | wrap (op : Wrapper) (operand : Accumulator α)
  /-- The value of the first branch whose test holds. -/
  | cases (branches : List (Accumulator α × Accumulator α)) (otherwise : Accumulator α)
  /-- The value of the first branch whose key equals the subject. -/
  | casesOf (subject : Accumulator α) (branches : List (Accumulator α × Accumulator α))
      (otherwise : Accumulator α)

instance {α : Type} [Inhabited α] : Inhabited (Accumulator α) := ⟨.leaf default⟩

namespace Accumulator

variable {α β : Type}

/-- Whether the tree is a single leaf. -/
def isLeaf : Accumulator α → Bool
  | leaf _ => true
  | _ => false

/-- The leftmost leaf. -/
def first : Accumulator α → α
  | leaf a => a
  | binary _ left _ => left.first
  | wrap _ operand => operand.first
  | cases [] otherwise => otherwise.first
  | cases ((test, _) :: _) _ => test.first
  | casesOf subject _ _ => subject.first

/-! ### Views -/

mutual

/-- Every leaf, left to right, with whether it lies beneath an aggregate. `beneath` says so of
the whole tree. -/
def visitFrom (beneath : Bool) : Accumulator α → List (α × Bool)
  | leaf a => [(a, beneath)]
  | binary _ left right => left.visitFrom beneath ++ right.visitFrom beneath
  | wrap op operand => operand.visitFrom (beneath || op.isAggregate)
  | cases branches otherwise => visitBranches beneath branches ++ otherwise.visitFrom beneath
  | casesOf subject branches otherwise =>
    subject.visitFrom beneath ++ (visitBranches beneath branches ++ otherwise.visitFrom beneath)

/-- Every leaf of the branches of a case. -/
def visitBranches (beneath : Bool) : List (Accumulator α × Accumulator α) → List (α × Bool)
  | [] => []
  | (test, value) :: rest =>
    test.visitFrom beneath ++ (value.visitFrom beneath ++ visitBranches beneath rest)

end

/-- Every leaf, left to right, with whether it lies beneath an aggregate. -/
def visit (acc : Accumulator α) : List (α × Bool) :=
  acc.visitFrom false

/-- Every leaf, left to right. -/
def leaves (acc : Accumulator α) : List α :=
  acc.visit.map Prod.fst

mutual

/-- Every aggregate with its operand, outermost first. -/
def aggregates : Accumulator α → List (Aggregate × Accumulator α)
  | leaf _ => []
  | binary _ left right => left.aggregates ++ right.aggregates
  | wrap (.aggregate function) operand => (function, operand) :: operand.aggregates
  | wrap _ operand => operand.aggregates
  | cases branches otherwise => aggregatesOfBranches branches ++ otherwise.aggregates
  | casesOf subject branches otherwise =>
    subject.aggregates ++ (aggregatesOfBranches branches ++ otherwise.aggregates)

/-- Every aggregate in the branches of a case. -/
def aggregatesOfBranches :
    List (Accumulator α × Accumulator α) → List (Aggregate × Accumulator α)
  | [] => []
  | (test, value) :: rest => test.aggregates ++ (value.aggregates ++ aggregatesOfBranches rest)

end

/-! ### Maps -/

mutual

/-- The tree with every leaf replaced, in the order of the leaves. -/
def traverse {m : Type → Type} [Monad m] (f : α → m β) : Accumulator α → m (Accumulator β)
  | leaf a => return leaf (← f a)
  | binary op left right => return binary op (← left.traverse f) (← right.traverse f)
  | wrap op operand => return wrap op (← operand.traverse f)
  | cases branches otherwise =>
    return cases (← traverseBranches f branches) (← otherwise.traverse f)
  | casesOf subject branches otherwise =>
    return casesOf (← subject.traverse f) (← traverseBranches f branches) (← otherwise.traverse f)

/-- The branches of a case with every leaf replaced. -/
def traverseBranches {m : Type → Type} [Monad m] (f : α → m β) :
    List (Accumulator α × Accumulator α) → m (List (Accumulator β × Accumulator β))
  | [] => return []
  | (test, value) :: rest =>
    return (← test.traverse f, ← value.traverse f) :: (← traverseBranches f rest)

end

mutual

/-- The tree with every leaf replaced. -/
def map (f : α → β) : Accumulator α → Accumulator β
  | leaf a => leaf (f a)
  | binary op left right => binary op (left.map f) (right.map f)
  | wrap op operand => wrap op (operand.map f)
  | cases branches otherwise => cases (mapBranches f branches) (otherwise.map f)
  | casesOf subject branches otherwise =>
    casesOf (subject.map f) (mapBranches f branches) (otherwise.map f)

/-- The branches of a case with every leaf replaced. -/
def mapBranches (f : α → β) :
    List (Accumulator α × Accumulator α) → List (Accumulator β × Accumulator β)
  | [] => []
  | (test, value) :: rest => (test.map f, value.map f) :: mapBranches f rest

end

end Accumulator

end NestedQuery
