import NestedQuery.Accumulator.Basic

/-!
# Aggregation of a tree

`Accumulator.aggregation` sorts trees into those without aggregates, those whose every leaf lies
beneath an aggregate, and those in between. Leaves that are parameters take no side: a count plus
a constant is aggregated.
-/

namespace NestedQuery

/-- How a tree relates to aggregates. -/
inductive Aggregation where
  /-- No aggregate. -/
  | none
  /-- Aggregates beside leaves outside them. -/
  | mixed
  /-- Every leaf is beneath an aggregate. -/
  | full
  deriving Repr, DecidableEq

/-- The aggregation of two parts taken together. -/
def Aggregation.join : Aggregation → Aggregation → Aggregation
  | full, full => full
  | none, none => none
  | _, _ => mixed

/-- The same for parts that may take no side. -/
def Aggregation.join? : Option Aggregation → Option Aggregation → Option Aggregation
  | some a, some b => some (a.join b)
  | some a, .none => some a
  | .none, b => b

namespace Accumulator

variable {α : Type}

mutual

/-- The aggregation of a tree; nothing if all its leaves are parameters outside aggregates. -/
def aggregation? (isParameter : α → Bool) : Accumulator α → Option Aggregation
  | leaf a => if isParameter a then none else some .none
  | wrap (.aggregate _) _ => some .full
  | wrap _ operand => operand.aggregation? isParameter
  | binary _ left right =>
    Aggregation.join? (left.aggregation? isParameter) (right.aggregation? isParameter)
  | cases branches otherwise =>
    Aggregation.join? (aggregationOfBranches? isParameter branches)
      (otherwise.aggregation? isParameter)
  | casesOf subject branches otherwise =>
    Aggregation.join? (subject.aggregation? isParameter)
      (Aggregation.join? (aggregationOfBranches? isParameter branches)
        (otherwise.aggregation? isParameter))

/-- The aggregation of the branches of a case. -/
def aggregationOfBranches? (isParameter : α → Bool) :
    List (Accumulator α × Accumulator α) → Option Aggregation
  | [] => none
  | (test, value) :: rest =>
    Aggregation.join?
      (Aggregation.join? (test.aggregation? isParameter) (value.aggregation? isParameter))
      (aggregationOfBranches? isParameter rest)

end

/-- The aggregation of a tree. -/
def aggregation (isParameter : α → Bool) (acc : Accumulator α) : Aggregation :=
  (acc.aggregation? isParameter).getD .none

end Accumulator

end NestedQuery
