import NestedQuery.Proofs.Select.JoinedRows

/-!
# Rows in lockstep

A database of any statement in which the tables outside a list `fixed` go in step: each of them
has two rows, 0 and 1, the others have one, and a condition holds iff the rows that it relates
outside `fixed` are all 0 or all 1. All columns tell rows apart.

Both the row of zeros and the row of ones are joined (`stepRow_mem_selectedRows`), and any
condition that holds of a joined row keeps the tables that it relates in step
(`eq_of_isInStep`). So what a statement makes of this database shows which of its tables hang
together.
-/

namespace NestedQuery.Database

variable {s : Statement} {fixed ts : List TableId} {ρ ρ' : JoinedRow} {b : Nat}

/-- Whether the rows of the tables outside `fixed` are all 0 or all 1. -/
def isInStep (fixed ts : List TableId) (ρ : JoinedRow) : Bool :=
  [0, 1].any fun b => ts.all fun t => fixed.contains t || ρ t == some b

theorem isInStep_iff :
    isInStep fixed ts ρ = true ↔ ∃ b, (b = 0 ∨ b = 1) ∧ ∀ t ∈ ts, t ∉ fixed → ρ t = some b := by
  have hall : ∀ b, (ts.all fun t => fixed.contains t || ρ t == some b) = true ↔
      ∀ t ∈ ts, t ∉ fixed → ρ t = some b := by
    intro b
    rw [List.all_eq_true]
    refine forall₂_congr fun t _ => ?_
    rw [Bool.or_eq_true, List.contains_iff_mem, beq_iff_eq, or_iff_not_imp_left]
  rw [isInStep, List.any_eq_true]
  constructor
  · rintro ⟨b, hb, h⟩
    rw [List.mem_cons, List.mem_singleton] at hb
    exact ⟨b, hb, (hall b).mp h⟩
  · rintro ⟨b, hb, h⟩
    refine ⟨b, ?_, (hall b).mpr h⟩
    rw [List.mem_cons, List.mem_singleton]
    exact hb

theorem isInStep_congr (h : ∀ t ∈ ts, ρ t = ρ' t) :
    isInStep fixed ts ρ = isInStep fixed ts ρ' := by
  rw [Bool.eq_iff_iff, isInStep_iff, isInStep_iff]
  refine exists_congr fun b => and_congr_right fun _ => forall₂_congr fun t ht => ?_
  rw [h t ht]

/-- Two tables in step have the same row, which is not null. -/
theorem eq_of_isInStep (h : isInStep fixed ts ρ = true) {t u : TableId} (ht : t ∈ ts)
    (hu : u ∈ ts) (ht' : t ∉ fixed) (hu' : u ∉ fixed) : ρ t = ρ u := by
  obtain ⟨b, -, hall⟩ := isInStep_iff.mp h
  rw [hall t ht ht', hall u hu hu']

theorem isSome_of_isInStep (h : isInStep fixed ts ρ = true) {t : TableId} (ht : t ∈ ts)
    (ht' : t ∉ fixed) : (ρ t).isSome := by
  obtain ⟨b, -, hall⟩ := isInStep_iff.mp h
  rw [hall t ht ht', Option.isSome_some]

/-- The database whose tables outside `fixed` go in step. -/
def lockstep (s : Statement) (fixed : List TableId) : Database s where
  rows t := if t ∈ fixed then [0] else [0, 1]
  joins t ρ := t == 0 || isInStep fixed (s.joinTables t) ρ
  keeps ρ := isInStep fixed s.filterTables ρ
  cell _ x := (x.map Nat.succ).getD 0
  joins_congr h := by rw [isInStep_congr h]
  joins_primary _ := rfl
  keeps_congr h := isInStep_congr h
  keeps_all h ρ := by
    rw [Statement.filterTables, h]
    rfl
  cell_rowId {t x y} h := by
    cases x <;> cases y <;> simp_all

/-- Where the join condition of a table reads another, what it relates is in step. -/
theorem isInStep_of_joins {t u : TableId} (hu : u ∈ s.joinNeeds t)
    (h : (lockstep s fixed).joins t ρ = true) : isInStep fixed (s.joinTables t) ρ = true := by
  have hzero : t ≠ 0 := by
    rintro rfl
    exact absurd hu List.not_mem_nil
  exact (Bool.or_eq_true_iff.mp h).resolve_left fun heq => hzero (beq_iff_eq.mp heq)

/-- All columns tell rows apart. -/
theorem lockstep_cell_injective {c : ColumnRef} {x y : Option Nat}
    (h : (lockstep s fixed).cell c x = (lockstep s fixed).cell c y) : x = y :=
  (lockstep s fixed).cell_rowId (t := c.table) h

/-- The row of the tables `ts` with the number `b` throughout, but for the tables in `fixed`. -/
def stepRow (fixed ts : List TableId) (b : Nat) : JoinedRow := fun t =>
  if t ∈ ts then some (if t ∈ fixed then 0 else b) else none

theorem stepRow_of_mem {t : TableId} (ht : t ∈ ts) (ht' : t ∉ fixed) :
    stepRow fixed ts b t = some b := by
  rw [stepRow, if_pos ht, if_neg ht']

theorem isSome_stepRow {t : TableId} (ht : t ∈ ts) : (stepRow fixed ts b t).isSome := by
  rw [stepRow, if_pos ht, Option.isSome_some]

/-- Rows with different numbers are the same in the tables that have only one row. -/
theorem stepRow_eq_stepRow {t : TableId} (ht : t ∈ ts → t ∈ fixed) (b b' : Nat) :
    stepRow fixed ts b t = stepRow fixed ts b' t := by
  rw [stepRow, stepRow]
  split
  · rename_i hts
    rw [if_pos (ht hts), if_pos (ht hts)]
  · rfl

/-- **The row of zeros and the row of ones are joined.** -/
theorem stepRow_mem_selectedRows (hts : IsClosed s ts) (hb : b = 0 ∨ b = 1) :
    stepRow fixed ts b ∈ (lockstep s fixed).selectedRows ts := by
  -- Whatever tables a condition relates, the row is in step on them.
  have hstep : ∀ us : List TableId, (∀ u ∈ us, u ∈ ts) →
      isInStep fixed us (stepRow fixed ts b) = true := fun us hus =>
    isInStep_iff.mpr ⟨b, hb, fun u hu hu' => stepRow_of_mem (hus u hu) hu'⟩
  refine (mem_selectedRows_iff hts.toIsOrdered).mpr
    ⟨⟨fun t ht => if_neg ht, fun t ht => ?_⟩, hstep _ hts.filter_mem⟩
  refine (fits_some_iff (if_pos ht)).mpr ⟨?_, ?_⟩
  · show _ ∈ if t ∈ fixed then [0] else [0, 1]
    split
    · exact List.mem_singleton_self 0
    · rw [List.mem_cons, List.mem_singleton]
      exact hb
  · exact Bool.or_eq_true_iff.mpr
      (Or.inr (hstep _ fun u hu => hts.mem_of_mem_joinTables ht hu))

end NestedQuery.Database
