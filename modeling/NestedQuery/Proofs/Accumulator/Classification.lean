import NestedQuery.Proofs.Accumulator.Traits

/-!
# Classification of trees by their aggregates

`Accumulator.aggregation?` joins sides from the leaves up; `visit` and `aggregates` go through the
tree from its root. What connects them is a list, `Accumulator.pieces`: the leaves outside
aggregates and the outermost aggregates. The joins come down to whether there are pieces of either
sort (`aggregation?_eq`), and the two views show which pieces there are (`inr_mem_pieces_iff`,
`has_aggregate_eq_any_pieces`). So trees of the same pieces are of one aggregation, however cases
order and group them (`aggregation_eq_of_pieces`).
-/

namespace NestedQuery

/-- The aggregation of what has aggregates or not, and leaves outside them that take a side or
not. -/
def Aggregation.of? : (aggregated outside : Bool) → Option Aggregation
  | false, false => .none
  | true, false => some full
  | false, true => some none
  | true, true => some mixed

theorem Aggregation.join?_of? (a b a' b' : Bool) :
    join? (of? a b) (of? a' b') = of? (a || a') (b || b') := by
  cases a <;> cases b <;> cases a' <;> cases b' <;> rfl

namespace Accumulator

variable {α : Type}

/-! ### Pieces -/

mutual

/-- What a tree is put together from: its aggregates, whatever is beneath them, and the leaves
outside them. -/
def pieces : Accumulator α → List (Aggregate ⊕ α)
  | leaf a => [.inr a]
  | wrap (.aggregate function) _ => [.inl function]
  | wrap _ operand => operand.pieces
  | binary _ left right => left.pieces ++ right.pieces
  | cases branches otherwise => piecesOfBranches branches ++ otherwise.pieces
  | casesOf subject branches otherwise =>
    subject.pieces ++ (piecesOfBranches branches ++ otherwise.pieces)

/-- What the branches of a case are put together from. -/
def piecesOfBranches : List (Accumulator α × Accumulator α) → List (Aggregate ⊕ α)
  | [] => []
  | (test, value) :: rest => test.pieces ++ (value.pieces ++ piecesOfBranches rest)

end

theorem piecesOfBranches_eq_flatMap (branches : List (Accumulator α × Accumulator α)) :
    piecesOfBranches branches = branches.flatMap fun b => b.1.pieces ++ b.2.pieces := by
  induction branches with
  | nil => rfl
  | cons b rest ih => rw [piecesOfBranches, ih, List.flatMap_cons, List.append_assoc]

/-- Whether a piece is a leaf that takes a side. -/
def takesSide (isParameter : α → Bool) : Aggregate ⊕ α → Bool
  | .inl _ => false
  | .inr a => !isParameter a

/-- The aggregation that pieces come to. -/
def aggregationOf? (isParameter : α → Bool) (pieces : List (Aggregate ⊕ α)) : Option Aggregation :=
  Aggregation.of? (pieces.any Sum.isLeft) (pieces.any (takesSide isParameter))

theorem join?_aggregationOf? (isParameter : α → Bool) (pieces others : List (Aggregate ⊕ α)) :
    Aggregation.join? (aggregationOf? isParameter pieces) (aggregationOf? isParameter others) =
      aggregationOf? isParameter (pieces ++ others) := by
  rw [aggregationOf?, aggregationOf?, Aggregation.join?_of?, aggregationOf?, List.any_append,
    List.any_append]

mutual

/-- What is joined from the leaves up is what the pieces come to. -/
theorem aggregation?_eq (isParameter : α → Bool) :
    (acc : Accumulator α) → acc.aggregation? isParameter = aggregationOf? isParameter acc.pieces
  | leaf a => by
    rw [aggregation?, pieces, aggregationOf?, List.any_cons, List.any_cons, takesSide]
    cases isParameter a <;> rfl
  | wrap (.aggregate _) _ => rfl
  | wrap .not operand | wrap .negate operand | wrap (.apply _) operand =>
    aggregation?_eq isParameter operand
  | binary _ left right => by
    rw [aggregation?, aggregation?_eq isParameter left, aggregation?_eq isParameter right,
      join?_aggregationOf?, pieces]
  | cases branches otherwise => by
    rw [aggregation?, aggregationOfBranches?_eq isParameter branches,
      aggregation?_eq isParameter otherwise, join?_aggregationOf?, pieces]
  | casesOf subject branches otherwise => by
    rw [aggregation?, aggregation?_eq isParameter subject,
      aggregationOfBranches?_eq isParameter branches, aggregation?_eq isParameter otherwise,
      join?_aggregationOf?, join?_aggregationOf?, pieces]

theorem aggregationOfBranches?_eq (isParameter : α → Bool) :
    (branches : List (Accumulator α × Accumulator α)) →
      aggregationOfBranches? isParameter branches =
        aggregationOf? isParameter (piecesOfBranches branches)
  | [] => rfl
  | (test, value) :: rest => by
    rw [aggregationOfBranches?, aggregation?_eq isParameter test,
      aggregation?_eq isParameter value, aggregationOfBranches?_eq isParameter rest,
      join?_aggregationOf?, join?_aggregationOf?, piecesOfBranches, List.append_assoc]

end

mutual

/-- The leaves that a visit finds outside aggregates are pieces, and the other way round. -/
theorem inr_mem_pieces_iff {a : α} :
    (acc : Accumulator α) → (.inr a ∈ acc.pieces ↔ (a, false) ∈ acc.visit)
  | leaf b => by
    rw [pieces, visit, visitFrom, List.mem_singleton, List.mem_singleton, Sum.inr.injEq,
      Prod.mk.injEq, and_iff_left rfl]
  | wrap (.aggregate function) operand => by
    rw [pieces, visit, visitFrom, visitFrom_eq_map, List.mem_map, List.mem_singleton]
    refine iff_of_false nofun ?_
    -- Whatever is visited beneath an aggregate is flagged.
    rintro ⟨x, _, hx⟩
    exact Bool.noConfusion (Prod.mk.inj hx).2
  | wrap .not operand | wrap .negate operand | wrap (.apply _) operand =>
    inr_mem_pieces_iff operand
  | binary _ left right => by
    rw [pieces, List.mem_append, inr_mem_pieces_iff left, inr_mem_pieces_iff right]
    exact List.mem_append.symm
  | cases branches otherwise => by
    rw [pieces, List.mem_append, inr_mem_piecesOfBranches_iff branches,
      inr_mem_pieces_iff otherwise]
    exact List.mem_append.symm
  | casesOf subject branches otherwise => by
    rw [pieces, List.mem_append, List.mem_append, inr_mem_pieces_iff subject,
      inr_mem_piecesOfBranches_iff branches, inr_mem_pieces_iff otherwise, ← List.mem_append]
    exact List.mem_append.symm

theorem inr_mem_piecesOfBranches_iff {a : α} :
    (branches : List (Accumulator α × Accumulator α)) →
      (.inr a ∈ piecesOfBranches branches ↔ (a, false) ∈ visitBranches false branches)
  | [] => iff_of_false List.not_mem_nil List.not_mem_nil
  | (test, value) :: rest => by
    rw [piecesOfBranches, visitBranches, List.mem_append, List.mem_append, List.mem_append,
      List.mem_append, inr_mem_pieces_iff test, inr_mem_pieces_iff value,
      inr_mem_piecesOfBranches_iff rest]
    rfl

end

mutual

/-- An aggregate is among the pieces if the tree has one anywhere: the outermost is. -/
theorem has_aggregate_eq_any_pieces :
    (acc : Accumulator α) → acc.has .aggregate = acc.pieces.any Sum.isLeft
  | leaf _ => rfl
  | wrap (.aggregate _) _ => rfl
  | wrap .not operand | wrap .negate operand | wrap (.apply _) operand =>
    has_aggregate_eq_any_pieces operand
  | binary _ left right => by
    rw [has, pieces, List.any_append, has_aggregate_eq_any_pieces left,
      has_aggregate_eq_any_pieces right]
  | cases branches otherwise => by
    rw [has, pieces, List.any_append, anyBranchHas_aggregate_eq_any_pieces branches,
      has_aggregate_eq_any_pieces otherwise]
    rfl
  | casesOf subject branches otherwise => by
    rw [has, pieces, List.any_append, List.any_append, has_aggregate_eq_any_pieces subject,
      anyBranchHas_aggregate_eq_any_pieces branches, has_aggregate_eq_any_pieces otherwise]
    rfl

theorem anyBranchHas_aggregate_eq_any_pieces :
    (branches : List (Accumulator α × Accumulator α)) →
      anyBranchHas .aggregate branches = (piecesOfBranches branches).any Sum.isLeft
  | [] => rfl
  | (test, value) :: rest => by
    rw [anyBranchHas, piecesOfBranches, List.any_append, List.any_append,
      has_aggregate_eq_any_pieces test, has_aggregate_eq_any_pieces value,
      anyBranchHas_aggregate_eq_any_pieces rest]

end

theorem any_isLeft_pieces_eq_false_iff {acc : Accumulator α} :
    acc.pieces.any Sum.isLeft = false ↔ acc.aggregates = [] := by
  rw [← has_aggregate_eq_any_pieces, has_aggregate_eq_false_iff]

theorem any_isLeft_pieces_eq_true_iff {acc : Accumulator α} :
    acc.pieces.any Sum.isLeft = true ↔ acc.aggregates ≠ [] := by
  rw [ne_eq, ← any_isLeft_pieces_eq_false_iff, Bool.not_eq_false]

theorem any_takesSide_pieces_eq_true_iff {isParameter : α → Bool} {acc : Accumulator α} :
    acc.pieces.any (takesSide isParameter) = true ↔
      ∃ x ∈ acc.visit, isParameter x.1 = false ∧ x.2 = false := by
  rw [List.any_eq_true]
  constructor
  · rintro ⟨_ | a, ha, hside⟩
    · cases hside
    · exact ⟨(a, false), (inr_mem_pieces_iff acc).mp ha, (Bool.not_eq_true' _).mp hside, rfl⟩
  · rintro ⟨⟨a, _⟩, ha, hside, rfl⟩
    exact ⟨.inr a, (inr_mem_pieces_iff acc).mpr ha, (Bool.not_eq_true' _).mpr hside⟩

theorem any_takesSide_pieces_eq_false_iff {isParameter : α → Bool} {acc : Accumulator α} :
    acc.pieces.any (takesSide isParameter) = false ↔
      ∀ x ∈ acc.visit, isParameter x.1 = false → x.2 = true := by
  rw [← Bool.not_eq_true, any_takesSide_pieces_eq_true_iff]
  simp only [not_exists, not_and, Bool.not_eq_false]

/-! ### The three classes -/

theorem aggregation_eq (isParameter : α → Bool) (acc : Accumulator α) :
    acc.aggregation isParameter = (aggregationOf? isParameter acc.pieces).getD .none := by
  rw [aggregation, aggregation?_eq]

theorem aggregation_eq_none_iff {isParameter : α → Bool} {acc : Accumulator α} :
    acc.aggregation isParameter = .none ↔ acc.aggregates = [] := by
  rw [aggregation_eq, aggregationOf?, ← any_isLeft_pieces_eq_false_iff]
  cases acc.pieces.any Sum.isLeft <;> cases acc.pieces.any (takesSide isParameter) <;> decide

theorem aggregation_eq_full_iff {isParameter : α → Bool} {acc : Accumulator α} :
    acc.aggregation isParameter = .full ↔ acc.aggregates ≠ [] ∧
      ∀ x ∈ acc.visit, isParameter x.1 = false → x.2 = true := by
  rw [aggregation_eq, aggregationOf?, ← any_isLeft_pieces_eq_true_iff,
    ← any_takesSide_pieces_eq_false_iff]
  cases acc.pieces.any Sum.isLeft <;> cases acc.pieces.any (takesSide isParameter) <;> decide

theorem aggregation_eq_mixed_iff {isParameter : α → Bool} {acc : Accumulator α} :
    acc.aggregation isParameter = .mixed ↔ acc.aggregates ≠ [] ∧
      ∃ x ∈ acc.visit, isParameter x.1 = false ∧ x.2 = false := by
  rw [aggregation_eq, aggregationOf?, ← any_isLeft_pieces_eq_true_iff,
    ← any_takesSide_pieces_eq_true_iff]
  cases acc.pieces.any Sum.isLeft <;> cases acc.pieces.any (takesSide isParameter) <;> decide

/-- Whether pieces are in order or doubled makes no difference. -/
theorem aggregation_eq_of_pieces {isParameter : α → Bool} {acc acc' : Accumulator α}
    (h : ∀ piece, piece ∈ acc.pieces ↔ piece ∈ acc'.pieces) :
    acc.aggregation isParameter = acc'.aggregation isParameter := by
  have hany : ∀ p : Aggregate ⊕ α → Bool, acc.pieces.any p = acc'.pieces.any p := fun p => by
    rw [Bool.eq_iff_iff, List.any_eq_true, List.any_eq_true]
    exact exists_congr fun piece => and_congr_left' (h piece)
  rw [aggregation_eq, aggregation_eq, aggregationOf?, aggregationOf?, hany, hany]

/-- Branches in another order, the last of them moved into a case of their own. -/
theorem mem_pieces_cases_of_perm {branches outer inner : List (Accumulator α × Accumulator α)}
    (h : branches.Perm (outer ++ inner)) (otherwise : Accumulator α) (piece : Aggregate ⊕ α) :
    piece ∈ (cases branches otherwise).pieces ↔
      piece ∈ (cases outer (cases inner otherwise)).pieces := by
  rw [pieces, pieces, pieces, ← List.append_assoc, piecesOfBranches_eq_flatMap,
    piecesOfBranches_eq_flatMap, piecesOfBranches_eq_flatMap, ← List.flatMap_append]
  exact ((h.flatMap_right _).append_right _).mem_iff

/-- The same for branches of a case with a subject, which then stands in both. -/
theorem mem_pieces_casesOf_of_perm {branches outer inner : List (Accumulator α × Accumulator α)}
    (h : branches.Perm (outer ++ inner)) (subject otherwise : Accumulator α)
    (piece : Aggregate ⊕ α) :
    piece ∈ (casesOf subject branches otherwise).pieces ↔
      piece ∈ (casesOf subject outer (casesOf subject inner otherwise)).pieces := by
  have hcases := mem_pieces_cases_of_perm h otherwise piece
  -- The subject's pieces are doubled on the right, so the lists of pieces are no permutations.
  simp only [pieces, List.mem_append] at hcases ⊢
  tauto

/-- The classification is exact: it says which of aggregates and leaves outside them there are,
for all that takes a side, and asks neither for the order of the pieces nor for how they are
grouped, those in the branches of cases least of all. -/
theorem aggregation_exact (isParameter : α → Bool) (acc : Accumulator α) :
    (acc.aggregation isParameter = .full ↔ acc.aggregates ≠ [] ∧
      ∀ x ∈ acc.visit, isParameter x.1 = false → x.2 = true) ∧
    (acc.aggregation isParameter = .none ↔ acc.aggregates = []) ∧
    (acc.aggregation isParameter = .mixed ↔ acc.aggregates ≠ [] ∧
      ∃ x ∈ acc.visit, isParameter x.1 = false ∧ x.2 = false) ∧
    (∀ acc' : Accumulator α, (∀ piece, piece ∈ acc.pieces ↔ piece ∈ acc'.pieces) →
      acc.aggregation isParameter = acc'.aggregation isParameter) ∧
    ∀ branches outer inner : List (Accumulator α × Accumulator α),
      branches.Perm (outer ++ inner) → ∀ subject otherwise : Accumulator α,
      (cases branches otherwise).aggregation isParameter =
          (cases outer (cases inner otherwise)).aggregation isParameter ∧
        (casesOf subject branches otherwise).aggregation isParameter =
          (casesOf subject outer (casesOf subject inner otherwise)).aggregation isParameter :=
  ⟨aggregation_eq_full_iff, aggregation_eq_none_iff, aggregation_eq_mixed_iff,
    fun _ => aggregation_eq_of_pieces, fun _ _ _ h subject otherwise =>
      ⟨aggregation_eq_of_pieces (mem_pieces_cases_of_perm h otherwise),
        aggregation_eq_of_pieces (mem_pieces_casesOf_of_perm h subject otherwise)⟩⟩

end Accumulator
end NestedQuery
