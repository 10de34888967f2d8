import NestedQuery.Proofs.Accumulator.Traversal
import NestedQuery.Proofs.Mapping.Values

/-!
# Values without commas

A compiled value is a single expression: commas stand in the lists of membership tests only
(`closedValues_isSingle`), and resolving leaves them there (`isSingle_of_resolveTree`).
-/

namespace NestedQuery

namespace Accumulator

variable {α β : Type}

mutual

/-- Whether commas stand in the lists of membership tests only. -/
def isSingle : Accumulator α → Bool
  | leaf _ => true
  | binary .comma _ _ => false
  | binary .isIn subject _ => subject.isSingle
  | binary _ left right => left.isSingle && right.isSingle
  | wrap _ operand => operand.isSingle
  | cases branches otherwise => areSingle branches && otherwise.isSingle
  | casesOf subject branches otherwise =>
    subject.isSingle && (areSingle branches && otherwise.isSingle)

/-- Whether the same holds in all branches of a case. -/
def areSingle : List (Accumulator α × Accumulator α) → Bool
  | [] => true
  | (test, value) :: rest => test.isSingle && (value.isSingle && areSingle rest)

end

theorem isSingle_binary {op : BinaryOp} (hin : op ≠ .isIn) (hcomma : op ≠ .comma)
    (left right : Accumulator α) :
    (binary op left right).isSingle = (left.isSingle && right.isSingle) := by
  cases op <;> first | rfl | exact absurd rfl hin | exact absurd rfl hcomma

theorem areSingle_iff {branches : List (Accumulator α × Accumulator α)} :
    areSingle branches ↔ ∀ b ∈ branches, b.1.isSingle ∧ b.2.isSingle := by
  induction branches with
  | nil => exact ⟨fun _ => nofun, fun _ => rfl⟩
  | cons branch rest ih =>
    rw [areSingle, Bool.and_eq_true, Bool.and_eq_true, ih, List.forall_mem_cons, and_assoc]

mutual

theorem isSingle_map (f : α → β) : (acc : Accumulator α) → (acc.map f).isSingle = acc.isSingle
  | leaf _ => rfl
  | binary op left right => by
    cases op with
    | comma => rfl
    | isIn => exact isSingle_map f left
    | _ =>
      rw [map, isSingle_binary (by simp) (by simp), isSingle_binary (by simp) (by simp),
        isSingle_map f left, isSingle_map f right]
  | wrap op operand => isSingle_map f operand
  | cases branches otherwise => by
    rw [map, isSingle, isSingle, areSingle_map f branches, isSingle_map f otherwise]
  | casesOf subject branches otherwise => by
    rw [map, isSingle, isSingle, isSingle_map f subject, areSingle_map f branches,
      isSingle_map f otherwise]

theorem areSingle_map (f : α → β) : (branches : List (Accumulator α × Accumulator α)) →
    areSingle (mapBranches f branches) = areSingle branches
  | [] => rfl
  | (test, value) :: rest => by
    rw [mapBranches, areSingle, areSingle, isSingle_map f test, isSingle_map f value,
      areSingle_map f rest]

end

end Accumulator

/-- **The compiler writes commas into membership lists only.** -/
theorem closedValues_isSingle (s : Statement) :
    ClosedValues s fun v => v.isSingle = true where
  param _ := rfl
  chain _ _ := rfl
  binary hin hcomma _ _ hleft hright := by
    rw [Accumulator.isSingle_binary hin hcomma, hleft, hright]
    rfl
  isIn hsubject _ := hsubject
  wrap _ hv := hv
  function _ _ := rfl
  cases hbranches hotherwise := by
    rw [Accumulator.isSingle, Accumulator.areSingle_iff.mpr hbranches, hotherwise]
    rfl
  casesOf hsubject hbranches hotherwise := by
    rw [Accumulator.isSingle, hsubject, Accumulator.areSingle_iff.mpr hbranches, hotherwise]
    rfl
  aggregate _ _ _ hv _ := by
    rw [Accumulator.isSingle, Accumulator.isSingle_map, hv]

/-- Resolving leaves the operators as they are. -/
theorem isSingle_of_resolveTree {r : Resolver} {v : Accumulator Symbol} {t : Term}
    (hv : v.isSingle = true) (h : r.resolveTree v = .ok t) : t.isSingle = true := by
  rw [Accumulator.eq_map_of_traverse v h, Accumulator.isSingle_map, hv]

end NestedQuery
