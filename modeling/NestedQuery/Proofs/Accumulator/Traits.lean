import NestedQuery.Accumulator.Aggregation
import NestedQuery.Proofs.Accumulator.Views

/-!
# Traits of accumulators

Three things decide whether a database takes a tree: aggregates, aggregates beneath aggregates, and
cases without branches. `Accumulator.has` looks for such a `Trait`. It does not look at leaves, so
a map keeps it (`has_map`).
-/

namespace NestedQuery

/-- What a tree may have somewhere in it. -/
inductive Trait where
  /-- An aggregate. -/
  | aggregate
  /-- An aggregate beneath another one. -/
  | nestedAggregate
  /-- A case without branches. -/
  | emptyCase
  deriving Repr, DecidableEq

namespace Trait

/-- What an aggregate needs in its operand to have the trait; nothing if it has it anyway. -/
def beneath? : Trait → Option Trait
  | aggregate => none
  | nestedAggregate => some aggregate
  | emptyCase => some emptyCase

/-- Whether a case has the trait by its number of branches. -/
def ofBranches {β : Type} (x : Trait) (branches : List β) : Bool :=
  x == emptyCase && branches.isEmpty

end Trait

namespace Accumulator

variable {α β : Type}

mutual

/-- Whether a tree has a trait. -/
def has (x : Trait) : Accumulator α → Bool
  | leaf _ => false
  | binary _ left right => left.has x || right.has x
  | wrap (.aggregate _) operand => x.beneath?.all fun y => operand.has y
  | wrap _ operand => operand.has x
  | cases branches otherwise =>
    x.ofBranches branches || (anyBranchHas x branches || otherwise.has x)
  | casesOf subject branches otherwise =>
    x.ofBranches branches || (subject.has x || (anyBranchHas x branches || otherwise.has x))

/-- Whether a branch of a case has a trait. -/
def anyBranchHas (x : Trait) : List (Accumulator α × Accumulator α) → Bool
  | [] => false
  | (test, value) :: rest => test.has x || (value.has x || anyBranchHas x rest)

end

theorem has_wrap {op : Wrapper} (hop : op.isAggregate = false) (x : Trait)
    (operand : Accumulator α) : (wrap op operand).has x = operand.has x := by
  cases op <;> first | rfl | cases hop

theorem isEmpty_mapBranches (f : α → β) (branches : List (Accumulator α × Accumulator α)) :
    (mapBranches f branches).isEmpty = branches.isEmpty := by
  rw [mapBranches_eq_map, List.isEmpty_map]

mutual

theorem has_map (f : α → β) (x : Trait) : (acc : Accumulator α) → (acc.map f).has x = acc.has x
  | leaf _ => rfl
  | binary _ left right => by rw [map, has, has, has_map f x left, has_map f x right]
  | wrap op operand => by
    rw [map]
    cases op with
    | aggregate function =>
      rw [has, has]
      exact congrArg (x.beneath?.all ·) (funext fun y => has_map f y operand)
    | _ => exact has_map f x operand
  | cases branches otherwise => by
    rw [map, has, has, anyBranchHas_map f x branches, has_map f x otherwise, Trait.ofBranches,
      isEmpty_mapBranches]
    rfl
  | casesOf subject branches otherwise => by
    rw [map, has, has, has_map f x subject, anyBranchHas_map f x branches, has_map f x otherwise,
      Trait.ofBranches, isEmpty_mapBranches]
    rfl

theorem anyBranchHas_map (f : α → β) (x : Trait) :
    (branches : List (Accumulator α × Accumulator α)) →
      anyBranchHas x (mapBranches f branches) = anyBranchHas x branches
  | [] => rfl
  | (test, value) :: rest => by
    rw [mapBranches, anyBranchHas, anyBranchHas, has_map f x test, has_map f x value,
      anyBranchHas_map f x rest]

end

mutual

/-- A tree without an aggregate has none in the list of its aggregates, and the other way round. -/
theorem has_aggregate_eq_false_iff :
    (acc : Accumulator α) → (acc.has .aggregate = false ↔ acc.aggregates = [])
  | leaf _ => iff_of_true rfl rfl
  | binary _ left right => by
    rw [has, aggregates, Bool.or_eq_false_iff, List.append_eq_nil_iff,
      has_aggregate_eq_false_iff left, has_aggregate_eq_false_iff right]
  | wrap op operand => by
    cases op with
    | aggregate function => exact iff_of_false nofun nofun
    | _ => exact has_aggregate_eq_false_iff operand
  | cases branches otherwise => by
    rw [has, aggregates, Bool.or_eq_false_iff, Bool.or_eq_false_iff, List.append_eq_nil_iff,
      anyBranchHas_aggregate_eq_false_iff branches, has_aggregate_eq_false_iff otherwise]
    exact and_iff_right rfl
  | casesOf subject branches otherwise => by
    rw [has, aggregates, Bool.or_eq_false_iff, Bool.or_eq_false_iff, Bool.or_eq_false_iff,
      List.append_eq_nil_iff, List.append_eq_nil_iff, has_aggregate_eq_false_iff subject,
      anyBranchHas_aggregate_eq_false_iff branches, has_aggregate_eq_false_iff otherwise]
    exact and_iff_right rfl

theorem anyBranchHas_aggregate_eq_false_iff :
    (branches : List (Accumulator α × Accumulator α)) →
      (anyBranchHas .aggregate branches = false ↔ aggregatesOfBranches branches = [])
  | [] => iff_of_true rfl rfl
  | (test, value) :: rest => by
    rw [anyBranchHas, aggregatesOfBranches, Bool.or_eq_false_iff, Bool.or_eq_false_iff,
      List.append_eq_nil_iff, List.append_eq_nil_iff, has_aggregate_eq_false_iff test,
      has_aggregate_eq_false_iff value, anyBranchHas_aggregate_eq_false_iff rest]

end

end Accumulator

end NestedQuery
