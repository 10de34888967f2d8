import NestedQuery.Accumulator.Aggregation
import NestedQuery.Proofs.Result

/-!
# Views of accumulators

How the views of a tree change when the tree does: beneath an aggregate every leaf is beneath an
aggregate (`visitFrom_or`), and a map acts on the leaves in place (`visitFrom_map`).

A tree without aggregates has no leaf beneath one (`not_beneath_of_aggregation_eq_none`), and the
leaves of an aggregate's operand are leaves of the tree (`leaves_subset_of_mem_aggregates`).
-/

namespace NestedQuery.Accumulator

variable {α β γ : Type}

/-! ### Leaves -/

mutual

/-- Whether the whole tree lies beneath an aggregate is added to what is said of each leaf. -/
theorem visitFrom_or (b c : Bool) :
    (acc : Accumulator α) → acc.visitFrom (b || c) = (acc.visitFrom c).map fun x => (x.1, b || x.2)
  | leaf a => rfl
  | binary _ left right => by
    rw [visitFrom, visitFrom, visitFrom_or b c left, visitFrom_or b c right, List.map_append]
  | wrap op operand => by
    rw [visitFrom, visitFrom, Bool.or_assoc, visitFrom_or b (c || op.isAggregate) operand]
  | cases branches otherwise => by
    rw [visitFrom, visitFrom, visitBranches_or b c branches, visitFrom_or b c otherwise,
      List.map_append]
  | casesOf subject branches otherwise => by
    rw [visitFrom, visitFrom, visitFrom_or b c subject, visitBranches_or b c branches,
      visitFrom_or b c otherwise, List.map_append, List.map_append]

theorem visitBranches_or (b c : Bool) :
    (branches : List (Accumulator α × Accumulator α)) →
      visitBranches (b || c) branches = (visitBranches c branches).map fun x => (x.1, b || x.2)
  | [] => rfl
  | (test, value) :: rest => by
    rw [visitBranches, visitBranches, visitFrom_or b c test, visitFrom_or b c value,
      visitBranches_or b c rest, List.map_append, List.map_append]

end

theorem visitFrom_eq_map (b : Bool) (acc : Accumulator α) :
    acc.visitFrom b = acc.visit.map fun x => (x.1, b || x.2) := by
  have h := visitFrom_or b false acc
  rwa [Bool.or_false] at h

theorem map_fst_visitFrom (b : Bool) (acc : Accumulator α) :
    (acc.visitFrom b).map Prod.fst = acc.leaves := by
  rw [visitFrom_eq_map, List.map_map, leaves]
  rfl

mutual

theorem visitFrom_map (f : α → β) (b : Bool) :
    (acc : Accumulator α) → (acc.map f).visitFrom b = (acc.visitFrom b).map (Prod.map f id)
  | leaf a => rfl
  | binary _ left right => by
    rw [map, visitFrom, visitFrom, visitFrom_map f b left, visitFrom_map f b right,
      List.map_append]
  | wrap op operand => by
    rw [map, visitFrom, visitFrom, visitFrom_map f _ operand]
  | cases branches otherwise => by
    rw [map, visitFrom, visitFrom, visitBranches_map f b branches, visitFrom_map f b otherwise,
      List.map_append]
  | casesOf subject branches otherwise => by
    rw [map, visitFrom, visitFrom, visitFrom_map f b subject, visitBranches_map f b branches,
      visitFrom_map f b otherwise, List.map_append, List.map_append]

theorem visitBranches_map (f : α → β) (b : Bool) :
    (branches : List (Accumulator α × Accumulator α)) →
      visitBranches b (mapBranches f branches) = (visitBranches b branches).map (Prod.map f id)
  | [] => rfl
  | (test, value) :: rest => by
    rw [mapBranches, visitBranches, visitBranches, visitFrom_map f b test,
      visitFrom_map f b value, visitBranches_map f b rest, List.map_append, List.map_append]

end

theorem leaves_map (f : α → β) (acc : Accumulator α) : (acc.map f).leaves = acc.leaves.map f := by
  rw [leaves, visit, visitFrom_map, List.map_map, leaves, visit, List.map_map]
  rfl

theorem mapBranches_eq_map (f : α → β) (branches : List (Accumulator α × Accumulator α)) :
    mapBranches f branches = branches.map fun b => (b.1.map f, b.2.map f) := by
  induction branches with
  | nil => rfl
  | cons b rest ih => rw [mapBranches, ih, List.map_cons]

mutual

theorem map_map (f : α → β) (g : β → γ) :
    (acc : Accumulator α) → (acc.map f).map g = acc.map (g ∘ f)
  | leaf _ => rfl
  | binary op left right => by rw [map, map, map, map_map f g left, map_map f g right]
  | wrap op operand => by rw [map, map, map, map_map f g operand]
  | cases branches otherwise => by
    rw [map, map, map, mapBranches_mapBranches f g branches, map_map f g otherwise]
  | casesOf subject branches otherwise => by
    rw [map, map, map, map_map f g subject, mapBranches_mapBranches f g branches,
      map_map f g otherwise]

theorem mapBranches_mapBranches (f : α → β) (g : β → γ) :
    (branches : List (Accumulator α × Accumulator α)) →
      mapBranches g (mapBranches f branches) = mapBranches (g ∘ f) branches
  | [] => rfl
  | (test, value) :: rest => by
    rw [mapBranches, mapBranches, mapBranches, map_map f g test, map_map f g value,
      mapBranches_mapBranches f g rest]

end

mutual

theorem aggregates_map (f : α → β) :
    (acc : Accumulator α) →
      (acc.map f).aggregates = acc.aggregates.map fun x => (x.1, x.2.map f)
  | leaf _ => rfl
  | binary _ left right => by
    rw [map, aggregates, aggregates, aggregates_map f left, aggregates_map f right,
      List.map_append]
  | wrap (.aggregate function) operand => congrArg (_ :: ·) (aggregates_map f operand)
  | wrap .not operand | wrap .negate operand | wrap (.apply _) operand =>
    aggregates_map f operand
  | cases branches otherwise => by
    rw [map, aggregates, aggregates, aggregatesOfBranches_map f branches,
      aggregates_map f otherwise, List.map_append]
  | casesOf subject branches otherwise => by
    rw [map, aggregates, aggregates, aggregates_map f subject,
      aggregatesOfBranches_map f branches, aggregates_map f otherwise, List.map_append,
      List.map_append]

theorem aggregatesOfBranches_map (f : α → β) :
    (branches : List (Accumulator α × Accumulator α)) →
      aggregatesOfBranches (mapBranches f branches) =
        (aggregatesOfBranches branches).map fun x => (x.1, x.2.map f)
  | [] => rfl
  | (test, value) :: rest => by
    rw [mapBranches, aggregatesOfBranches, aggregatesOfBranches, aggregates_map f test,
      aggregates_map f value, aggregatesOfBranches_map f rest, List.map_append, List.map_append]

end

mutual

theorem aggregation?_map (f : α → β) (isParameter : β → Bool) :
    (acc : Accumulator α) →
      (acc.map f).aggregation? isParameter = acc.aggregation? fun a => isParameter (f a)
  | leaf _ => rfl
  | binary op left right => by
    rw [map, aggregation?, aggregation?, aggregation?_map f isParameter left,
      aggregation?_map f isParameter right]
  | wrap (.aggregate _) operand => rfl
  | wrap .not operand | wrap .negate operand | wrap (.apply _) operand =>
    aggregation?_map f isParameter operand
  | cases branches otherwise => by
    rw [map, aggregation?, aggregation?, aggregationOfBranches?_map f isParameter branches,
      aggregation?_map f isParameter otherwise]
  | casesOf subject branches otherwise => by
    rw [map, aggregation?, aggregation?, aggregation?_map f isParameter subject,
      aggregationOfBranches?_map f isParameter branches, aggregation?_map f isParameter otherwise]

theorem aggregationOfBranches?_map (f : α → β) (isParameter : β → Bool) :
    (branches : List (Accumulator α × Accumulator α)) →
      aggregationOfBranches? isParameter (mapBranches f branches) =
        aggregationOfBranches? (fun a => isParameter (f a)) branches
  | [] => rfl
  | (test, value) :: rest => by
    rw [mapBranches, aggregationOfBranches?, aggregationOfBranches?,
      aggregation?_map f isParameter test, aggregation?_map f isParameter value,
      aggregationOfBranches?_map f isParameter rest]

end

/-! ### Aggregates -/

theorem join?_ne {a b : Option Aggregation} (h : (Aggregation.join? a b).getD .none = .none) :
    a.getD .none = .none ∧ b.getD .none = .none := by
  rcases a with _ | _ | _ | _ <;> rcases b with _ | _ | _ | _ <;>
    simp_all [Aggregation.join?, Aggregation.join]

mutual

/-- A tree without aggregates has no leaf beneath one. -/
theorem not_beneath_of_aggregation_eq_none {isParameter : α → Bool} :
    (acc : Accumulator α) → (acc.aggregation? isParameter).getD .none = .none →
      ∀ x ∈ acc.visit, x.2 = false
  | leaf a, _, x, hx => by
    rw [List.mem_singleton.mp hx]
  | binary _ left right, h, x, hx => by
    rw [aggregation?] at h
    obtain ⟨hleft, hright⟩ := join?_ne h
    rcases List.mem_append.mp hx with hx | hx
    · exact not_beneath_of_aggregation_eq_none left hleft x hx
    · exact not_beneath_of_aggregation_eq_none right hright x hx
  | wrap (.aggregate _) operand, h, x, hx => by
    -- An aggregate is excluded; every other node passes the question to its parts.
    rw [aggregation?] at h
    exact absurd h (by simp)
  | wrap .not operand, h, x, hx => not_beneath_of_aggregation_eq_none operand h x hx
  | wrap .negate operand, h, x, hx => not_beneath_of_aggregation_eq_none operand h x hx
  | wrap (.apply _) operand, h, x, hx => not_beneath_of_aggregation_eq_none operand h x hx
  | cases branches otherwise, h, x, hx => by
    rw [aggregation?] at h
    obtain ⟨hbranches, hotherwise⟩ := join?_ne h
    rcases List.mem_append.mp hx with hx | hx
    · exact not_beneath_of_aggregationOfBranches_eq_none branches hbranches x hx
    · exact not_beneath_of_aggregation_eq_none otherwise hotherwise x hx
  | casesOf subject branches otherwise, h, x, hx => by
    rw [aggregation?] at h
    obtain ⟨hsubject, h⟩ := join?_ne h
    obtain ⟨hbranches, hotherwise⟩ := join?_ne h
    rcases List.mem_append.mp hx with hx | hx
    · exact not_beneath_of_aggregation_eq_none subject hsubject x hx
    · rcases List.mem_append.mp hx with hx | hx
      · exact not_beneath_of_aggregationOfBranches_eq_none branches hbranches x hx
      · exact not_beneath_of_aggregation_eq_none otherwise hotherwise x hx

theorem not_beneath_of_aggregationOfBranches_eq_none {isParameter : α → Bool} :
    (branches : List (Accumulator α × Accumulator α)) →
      (aggregationOfBranches? isParameter branches).getD .none = .none →
      ∀ x ∈ visitBranches false branches, x.2 = false
  | [], _, x, hx => absurd hx List.not_mem_nil
  | (test, value) :: rest, h, x, hx => by
    rw [aggregationOfBranches?] at h
    obtain ⟨h, hrest⟩ := join?_ne h
    obtain ⟨htest, hvalue⟩ := join?_ne h
    rcases List.mem_append.mp hx with hx | hx
    · exact not_beneath_of_aggregation_eq_none test htest x hx
    · rcases List.mem_append.mp hx with hx | hx
      · exact not_beneath_of_aggregation_eq_none value hvalue x hx
      · exact not_beneath_of_aggregationOfBranches_eq_none rest hrest x hx

end

theorem leaves_binary (op : BinaryOp) (left right : Accumulator α) :
    (binary op left right).leaves = left.leaves ++ right.leaves := by
  rw [leaves, visit, visitFrom, List.map_append]
  rfl

theorem leaves_wrap (op : Wrapper) (operand : Accumulator α) :
    (wrap op operand).leaves = operand.leaves := by
  rw [leaves, visit, visitFrom, map_fst_visitFrom]

theorem leaves_cases (branches : List (Accumulator α × Accumulator α))
    (otherwise : Accumulator α) :
    (cases branches otherwise).leaves =
      (visitBranches false branches).map Prod.fst ++ otherwise.leaves := by
  rw [leaves, visit, visitFrom, List.map_append]
  rfl

theorem leaves_casesOf (subject : Accumulator α) (branches : List (Accumulator α × Accumulator α))
    (otherwise : Accumulator α) :
    (casesOf subject branches otherwise).leaves =
      subject.leaves ++ ((visitBranches false branches).map Prod.fst ++ otherwise.leaves) := by
  rw [leaves, visit, visitFrom, List.map_append, List.map_append]
  rfl

mutual

/-- The leaves of the operand of an aggregate are leaves of the tree. -/
theorem leaves_subset_of_mem_aggregates :
    (acc : Accumulator α) → ∀ x ∈ acc.aggregates, x.2.leaves ⊆ acc.leaves
  | leaf a, x, hx => absurd hx List.not_mem_nil
  | binary op left right, x, hx => by
    rw [leaves_binary]
    rcases List.mem_append.mp hx with hx | hx
    · exact List.subset_append_of_subset_left _ (leaves_subset_of_mem_aggregates left x hx)
    · exact List.subset_append_of_subset_right _ (leaves_subset_of_mem_aggregates right x hx)
  | wrap (.aggregate function) operand, x, hx => by
    rw [leaves_wrap]
    rcases List.mem_cons.mp hx with rfl | hx
    · exact List.Subset.refl _
    · exact leaves_subset_of_mem_aggregates operand x hx
  | wrap .not operand, x, hx => by
    rw [leaves_wrap]
    exact leaves_subset_of_mem_aggregates operand x hx
  | wrap .negate operand, x, hx => by
    rw [leaves_wrap]
    exact leaves_subset_of_mem_aggregates operand x hx
  | wrap (.apply _) operand, x, hx => by
    rw [leaves_wrap]
    exact leaves_subset_of_mem_aggregates operand x hx
  | cases branches otherwise, x, hx => by
    rw [leaves_cases]
    rcases List.mem_append.mp hx with hx | hx
    · exact List.subset_append_of_subset_left _
        (leaves_subset_of_mem_aggregatesOfBranches branches x hx)
    · exact List.subset_append_of_subset_right _ (leaves_subset_of_mem_aggregates otherwise x hx)
  | casesOf subject branches otherwise, x, hx => by
    rw [leaves_casesOf]
    rcases List.mem_append.mp hx with hx | hx
    · exact List.subset_append_of_subset_left _ (leaves_subset_of_mem_aggregates subject x hx)
    · refine List.subset_append_of_subset_right _ ?_
      rcases List.mem_append.mp hx with hx | hx
      · exact List.subset_append_of_subset_left _
          (leaves_subset_of_mem_aggregatesOfBranches branches x hx)
      · exact List.subset_append_of_subset_right _
          (leaves_subset_of_mem_aggregates otherwise x hx)

theorem leaves_subset_of_mem_aggregatesOfBranches :
    (branches : List (Accumulator α × Accumulator α)) → ∀ x ∈ aggregatesOfBranches branches,
      x.2.leaves ⊆ (visitBranches false branches).map Prod.fst
  | [], x, hx => absurd hx List.not_mem_nil
  | (test, value) :: rest, x, hx => by
    rw [visitBranches, List.map_append, List.map_append]
    rcases List.mem_append.mp hx with hx | hx
    · exact List.subset_append_of_subset_left _ (leaves_subset_of_mem_aggregates test x hx)
    · refine List.subset_append_of_subset_right _ ?_
      rcases List.mem_append.mp hx with hx | hx
      · exact List.subset_append_of_subset_left _ (leaves_subset_of_mem_aggregates value x hx)
      · exact List.subset_append_of_subset_right _
          (leaves_subset_of_mem_aggregatesOfBranches rest x hx)

end

end NestedQuery.Accumulator
