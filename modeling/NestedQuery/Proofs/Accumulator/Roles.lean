import NestedQuery.Proofs.Accumulator.Traversal

/-!
# The roles of leaves

A leaf plays one of two roles: it is the whole set of a membership test, where a parameter may be a
list, or it is a part of something else, where a parameter is one value. `Accumulator.roles` lists
the leaves with their roles, and maps and traversals keep them (`roles_map`, `roles_of_traverse`).
-/

namespace NestedQuery.Accumulator

variable {α β : Type}

mutual

/-- Every leaf, left to right, with whether it is the whole set of a membership test. `isSet` says
so of the tree itself. -/
def roles (isSet : Bool) : Accumulator α → List (α × Bool)
  | leaf a => [(a, isSet)]
  | binary .isIn left right => left.roles false ++ right.roles true
  | binary _ left right => left.roles false ++ right.roles false
  | wrap _ operand => operand.roles false
  | cases branches otherwise => rolesOfBranches branches ++ otherwise.roles false
  | casesOf subject branches otherwise =>
    subject.roles false ++ (rolesOfBranches branches ++ otherwise.roles false)

/-- Every leaf of the branches of a case. -/
def rolesOfBranches : List (Accumulator α × Accumulator α) → List (α × Bool)
  | [] => []
  | (test, value) :: rest =>
    test.roles false ++ (value.roles false ++ rolesOfBranches rest)

end

theorem roles_binary {op : BinaryOp} (h : op ≠ .isIn) (isSet : Bool)
    (left right : Accumulator α) :
    (binary op left right).roles isSet = left.roles false ++ right.roles false := by
  cases op with
  | isIn => exact absurd rfl h
  | _ => rfl

/-- The role of the tree itself matters to a leaf only. -/
theorem roles_eq_of_not_isLeaf {acc : Accumulator α} (h : acc.isLeaf = false)
    (isSet isSet' : Bool) : acc.roles isSet = acc.roles isSet' := by
  cases acc with
  | leaf a => exact absurd h (by simp [isLeaf])
  | binary op left right => cases op <;> rfl
  | _ => rfl

theorem forall_mem_rolesOfBranches_iff {p : α × Bool → Prop}
    {branches : List (Accumulator α × Accumulator α)} :
    (∀ x ∈ rolesOfBranches branches, p x) ↔
      ∀ b ∈ branches, (∀ x ∈ b.1.roles false, p x) ∧ ∀ x ∈ b.2.roles false, p x := by
  induction branches with
  | nil => simp [rolesOfBranches]
  | cons branch rest ih =>
    rw [rolesOfBranches, List.forall_mem_append, List.forall_mem_append, ih, List.forall_mem_cons,
      and_assoc]

mutual

/-- The roles tell of every leaf. -/
theorem map_fst_roles (isSet : Bool) :
    (acc : Accumulator α) → (acc.roles isSet).map Prod.fst = acc.leaves
  | leaf a => rfl
  | binary op left right => by
    rw [leaves_binary, ← map_fst_roles false left]
    cases op with
    | isIn => rw [roles, List.map_append, map_fst_roles true right]
    | _ => rw [roles_binary (by simp), List.map_append, map_fst_roles false right]
  | wrap op operand => by
    rw [leaves_wrap, roles, map_fst_roles false operand]
  | cases branches otherwise => by
    rw [leaves_cases, roles, List.map_append, map_fst_rolesOfBranches branches,
      map_fst_roles false otherwise]
  | casesOf subject branches otherwise => by
    rw [leaves_casesOf, roles, List.map_append, List.map_append, map_fst_roles false subject,
      map_fst_rolesOfBranches branches, map_fst_roles false otherwise]

theorem map_fst_rolesOfBranches :
    (branches : List (Accumulator α × Accumulator α)) →
      (rolesOfBranches branches).map Prod.fst = (visitBranches false branches).map Prod.fst
  | [] => rfl
  | (test, value) :: rest => by
    rw [rolesOfBranches, visitBranches, List.map_append, List.map_append, List.map_append,
      List.map_append, map_fst_roles false test, map_fst_roles false value,
      map_fst_rolesOfBranches rest, map_fst_visitFrom, map_fst_visitFrom]

end

mutual

theorem roles_map (f : α → β) (isSet : Bool) :
    (acc : Accumulator α) → (acc.map f).roles isSet = (acc.roles isSet).map (Prod.map f id)
  | leaf a => rfl
  | binary op left right => by
    rw [map]
    cases op with
    | isIn =>
      rw [roles, roles, roles_map f false left, roles_map f true right, List.map_append]
    | _ =>
      rw [roles_binary (by simp), roles_binary (by simp), roles_map f false left,
        roles_map f false right, List.map_append]
  | wrap op operand => by
    rw [map, roles, roles, roles_map f false operand]
  | cases branches otherwise => by
    rw [map, roles, roles, rolesOfBranches_map f branches, roles_map f false otherwise,
      List.map_append]
  | casesOf subject branches otherwise => by
    rw [map, roles, roles, roles_map f false subject, rolesOfBranches_map f branches,
      roles_map f false otherwise, List.map_append, List.map_append]

theorem rolesOfBranches_map (f : α → β) :
    (branches : List (Accumulator α × Accumulator α)) →
      rolesOfBranches (mapBranches f branches) = (rolesOfBranches branches).map (Prod.map f id)
  | [] => rfl
  | (test, value) :: rest => by
    rw [mapBranches, rolesOfBranches, rolesOfBranches, roles_map f false test,
      roles_map f false value, rolesOfBranches_map f rest, List.map_append, List.map_append]

end

/-! ### Traversals -/

/-- Which leaves are whole sets is a matter of the shape. -/
theorem map_snd_roles_eq_of_shape_eq {acc : Accumulator α} {acc' : Accumulator β}
    (h : acc.shape = acc'.shape) (isSet : Bool) :
    (acc.roles isSet).map Prod.snd = (acc'.roles isSet).map Prod.snd := by
  have h := congrArg (fun t => (t.roles isSet).map Prod.snd) h
  simp only [shape, roles_map, List.map_map] at h
  exact h

/-- A traversal that succeeds leaves every leaf its role. -/
theorem roles_of_traverse {f : α → Result β} (isSet : Bool) (acc : Accumulator α)
    {t : Accumulator β} (h : acc.traverse f = .ok t) :
    List.Forall₂ (IsImage f) (acc.roles isSet) (t.roles isSet) := by
  obtain ⟨hshape, hleaves⟩ := traverse_eq_ok_iff.mp h
  rw [← map_fst_roles isSet acc, ← map_fst_roles isSet t] at hleaves
  exact forall₂_isImage hleaves (map_snd_roles_eq_of_shape_eq hshape isSet)

/-- A traversal fails at a leaf. -/
theorem exists_of_traverse_eq_error {f : α → Result β} {e : Error} (isSet : Bool)
    (acc : Accumulator α) (h : acc.traverse f = .error e) :
    ∃ x ∈ acc.roles isSet, f x.1 = .error e := by
  obtain ⟨a, ha, hfail⟩ := Result.mapM_eq_error (traverse_eq_error_iff.mp h)
  rw [← map_fst_roles isSet acc] at ha
  obtain ⟨x, hx, rfl⟩ := List.mem_map.mp ha
  exact ⟨x, hx, hfail⟩

end NestedQuery.Accumulator
