import NestedQuery.Proofs.Accumulator.Traversal
import NestedQuery.Proofs.Mapping.Values

/-!
# Leaves and the tables they belong to

A leaf of a compiled value is folded into a table just if it lies beneath an aggregate
(`closedValues_foldedBeneath`). So after resolution the value of every leaf outside aggregates
belongs to the rows of the table that it is read from, and no leaf reads or belongs to a table
that the statement does not have (`isOf_of_resolveTree`).
-/

namespace NestedQuery

/-- The table that a leaf is folded into. -/
def Symbol.into? : Symbol → Option TableId
  | param _ => none
  | column _ _ into _ => into

/-- Each column of a value is folded into a table just if it lies beneath an aggregate, and that
table is one of the statement. -/
def FoldedBeneath (s : Statement) (v : Accumulator Symbol) : Prop :=
  ∀ x ∈ v.visit, (x.1.isParam = false → (x.1.into?.isSome ↔ x.2 = true)) ∧
    ∀ t, x.1.into? = some t → t ∈ s.tableIds

theorem Accumulator.mem_visitBranches {α : Type} {b : Bool} {x : α × Bool}
    {branches : List (Accumulator α × Accumulator α)} (hx : x ∈ visitBranches b branches) :
    ∃ branch ∈ branches, x ∈ branch.1.visitFrom b ∨ x ∈ branch.2.visitFrom b := by
  induction branches with
  | nil => exact absurd hx List.not_mem_nil
  | cons branch rest ih =>
    rcases List.mem_append.mp hx with hx | hx
    · exact ⟨branch, List.mem_cons_self .., Or.inl hx⟩
    · rcases List.mem_append.mp hx with hx | hx
      · exact ⟨branch, List.mem_cons_self .., Or.inr hx⟩
      · obtain ⟨branch', hbranch', hx⟩ := ih hx
        exact ⟨branch', List.mem_cons_of_mem _ hbranch', hx⟩

theorem FoldedBeneath.foldedInto {s : Statement} {v : Accumulator Symbol}
    (hv : FoldedBeneath s v) (f : Aggregate) {t : TableId} (ht : t ∈ s.tableIds) :
    FoldedBeneath s (.wrap (.aggregate f) (v.map (Symbol.foldedInto t))) := by
  intro x hx
  rw [Accumulator.visit, Accumulator.visitFrom, Accumulator.visitFrom_map,
    Accumulator.visitFrom_eq_map, List.map_map] at hx
  obtain ⟨⟨leaf, beneath⟩, hleaf, rfl⟩ := List.mem_map.mp hx
  obtain ⟨-, hinto⟩ := hv _ hleaf
  cases leaf with
  | param id => exact ⟨fun h => absurd h (by simp [Symbol.foldedInto, Symbol.isParam]), hinto⟩
  | column root path into function =>
    -- A column that is folded already stays with its table.
    cases into with
    | none =>
      refine ⟨fun _ => ⟨fun _ => rfl, fun _ => rfl⟩, fun u hu => ?_⟩
      rw [← Option.some.inj hu]
      exact ht
    | some u => exact ⟨fun _ => ⟨fun _ => rfl, fun _ => rfl⟩, hinto⟩

theorem foldedBeneath_param (s : Statement) (id : ParamId) :
    FoldedBeneath s (.leaf (.param id)) := by
  intro x hx
  rw [List.mem_singleton.mp hx]
  exact ⟨fun h => absurd h (by simp [Symbol.isParam]),
    fun t ht => absurd ht (by simp [Symbol.into?])⟩

theorem Accumulator.IsParameterList.foldedBeneath {s : Statement} {list : Accumulator Symbol}
    (h : list.IsParameterList) : FoldedBeneath s list := by
  induction h with
  | param id => exact foldedBeneath_param s id
  | comma id _ ih =>
    intro x hx
    rcases List.mem_append.mp hx with hx | hx
    · exact ih x hx
    · exact foldedBeneath_param s id x hx

/-- **The compiler folds just what lies beneath an aggregate.** -/
theorem closedValues_foldedBeneath (s : Statement) : ClosedValues s (FoldedBeneath s) where
  param := foldedBeneath_param s
  chain root path x hx := by
    rw [List.mem_singleton.mp hx]
    exact ⟨fun _ => by simp [Symbol.into?], fun t ht => absurd ht (by simp [Symbol.into?])⟩
  binary _ _ _ _ hleft hright x hx := by
    rcases List.mem_append.mp hx with hx | hx
    · exact hleft x hx
    · exact hright x hx
  isIn hsubject hlist x hx := by
    rcases List.mem_append.mp hx with hx | hx
    · exact hsubject x hx
    · exact hlist.foldedBeneath x hx
  wrap hop hv x hx := by
    rw [Accumulator.visit, Accumulator.visitFrom, hop] at hx
    exact hv x hx
  function f hv x hx := by
    rw [List.mem_singleton.mp hx]
    -- The operand of a function becomes one leaf, which is folded if it is beneath an aggregate.
    obtain ⟨hfold, hinto⟩ := hv _ (List.mem_singleton_self _)
    exact ⟨hfold, hinto⟩
  cases hbranches hotherwise x hx := by
    rcases List.mem_append.mp hx with hx | hx
    · obtain ⟨branch, hbranch, hx | hx⟩ := Accumulator.mem_visitBranches hx
      · exact (hbranches branch hbranch).1 x hx
      · exact (hbranches branch hbranch).2 x hx
    · exact hotherwise x hx
  casesOf hsubject hbranches hotherwise x hx := by
    rcases List.mem_append.mp hx with hx | hx
    · exact hsubject x hx
    rcases List.mem_append.mp hx with hx | hx
    · obtain ⟨branch, hbranch, hx | hx⟩ := Accumulator.mem_visitBranches hx
      · exact (hbranches branch hbranch).1 x hx
      · exact (hbranches branch hbranch).2 x hx
    · exact hotherwise x hx
  aggregate f _ _ hv ht := hv.foldedInto f ht

/-! ### Resolution -/

/-- The leaf reads and belongs to tables among `ids`; outside aggregates these are the same. -/
def Cell.IsOf (ids : List TableId) (beneath : Bool) : Cell → Prop
  | param _ => True
  | column c r _ _ => c.table ∈ ids ∧ c.tableAlias = tableAlias c.table ∧
      (∃ t ∈ ids, r = rowIdRef t) ∧ (beneath = false → r = rowIdRef c.table)

namespace Cell

variable {ids : List TableId} {beneath : Bool} {a : Cell} {c : ColumnRef} {t : TableId}

theorem table_mem_tables (hc : a.column? = some c) : c.table ∈ a.tables := by
  cases a with
  | param id => exact absurd hc (by simp [column?])
  | column c' r function type =>
    obtain rfl := Option.some.inj hc
    exact List.mem_cons_self ..

theorem rowId?_table_mem_tables (ht : a.rowId?.map ColumnRef.table = some t) : t ∈ a.tables := by
  cases a with
  | param id => exact absurd ht (by simp [rowId?])
  | column c r function type =>
    rw [← Option.some.inj ht]
    exact List.mem_cons_of_mem _ (List.mem_singleton_self _)

theorem IsOf.mem_of_mem_tables (h : a.IsOf ids beneath) (ht : t ∈ a.tables) : t ∈ ids := by
  cases a with
  | param id => exact absurd ht List.not_mem_nil
  | column c r function type =>
    obtain ⟨hc, -, ⟨u, hu, rfl⟩, -⟩ := h
    rcases List.mem_cons.mp ht with rfl | ht
    · exact hc
    · exact List.mem_singleton.mp ht ▸ hu

/-- Outside aggregates a value belongs to the table that it is read from. -/
theorem IsOf.rowId?_eq (h : a.IsOf ids false) (hc : a.column? = some c) :
    a.rowId? = some (rowIdRef c.table) := by
  cases a with
  | param id => exact absurd hc (by simp [column?])
  | column c' r function type =>
    obtain rfl := Option.some.inj hc
    exact congrArg some (h.2.2.2 rfl)

/-- Outside aggregates a leaf needs no table but the one that it reads. -/
theorem IsOf.mem_tables_iff (h : a.IsOf ids false) :
    t ∈ a.tables ↔ ∃ c, a.column? = some c ∧ c.table = t := by
  refine ⟨fun ht => ?_, fun ⟨c, hc, htable⟩ => htable ▸ table_mem_tables hc⟩
  cases a with
  | param id => exact absurd ht List.not_mem_nil
  | column c r function type =>
    refine ⟨c, rfl, ?_⟩
    rcases List.mem_cons.mp ht with rfl | ht
    · rfl
    · rw [List.mem_singleton.mp ht, h.2.2.2 rfl]
      rfl

end Cell

/-- All leaves of a term read and belong to tables among `ids`. -/
def Term.IsOf (ids : List TableId) (t : Term) : Prop :=
  ∀ x ∈ t.visit, x.1.IsOf ids x.2

/-- A term needs the tables that it reads. -/
theorem Term.table_mem_neededTables {t : Term} {c : ColumnRef} (hc : c ∈ Term.columns t) :
    c.table ∈ Term.neededTables t := by
  obtain ⟨leaf, hleaf, hcolumn⟩ := List.mem_filterMap.mp hc
  exact List.mem_flatMap.mpr ⟨leaf, hleaf, Cell.table_mem_tables hcolumn⟩

theorem Term.IsOf.mem_of_mem_neededTables {ids : List TableId} {t : Term} (h : Term.IsOf ids t)
    {u : TableId} (hu : u ∈ Term.neededTables t) : u ∈ ids := by
  obtain ⟨leaf, hleaf, hu⟩ := List.mem_flatMap.mp hu
  obtain ⟨x, hx, rfl⟩ := List.mem_map.mp hleaf
  exact (h x hx).mem_of_mem_tables hu

theorem Resolver.columnAt_eq_ok {r : Resolver} {path : List String} {c : ColumnRef}
    {type : ValueType} (h : r.columnAt path = .ok (c, type)) :
    c.table ∈ r.statement.tableIds ∧ c.tableAlias = tableAlias c.table := by
  unfold columnAt at h
  simp only at h
  split at h
  · rename_i hlookup
    obtain ⟨rfl, -⟩ := Prod.mk.inj (Except.ok.inj h)
    exact ⟨Statement.lookup?_table? hlookup rfl, rfl⟩
  · rename_i hlookup
    obtain ⟨rfl, -⟩ := Prod.mk.inj (Except.ok.inj h)
    exact ⟨Statement.lookup?_table? hlookup rfl, rfl⟩
  · exact absurd h (by simp)
  · exact absurd h (by simp)
  · exact absurd h (by simp)

theorem Resolver.resolve_isOf {r : Resolver} {a : Symbol} {cell : Cell} {beneath : Bool}
    (hfold : a.isParam = false → (a.into?.isSome ↔ beneath = true))
    (hinto : ∀ t, a.into? = some t → t ∈ r.statement.tableIds) (h : r.resolve a = .ok cell) :
    cell.IsOf r.statement.tableIds beneath := by
  cases a with
  | param id =>
    rw [← Except.ok.inj h]
    trivial
  | column root path into function =>
    rw [resolve, Result.bind_eq_ok_iff] at h
    obtain ⟨path', -, h⟩ := h
    obtain ⟨⟨c, type⟩, hcolumn, h⟩ := Result.bind_eq_ok_iff.mp h
    obtain ⟨hc, halias⟩ := columnAt_eq_ok hcolumn
    rw [← Result.pure_eq_ok_iff.mp h]
    refine ⟨hc, halias, ?_, fun hbeneath => ?_⟩
    · cases into with
      | none => exact ⟨c.table, hc, rfl⟩
      | some t => exact ⟨t, hinto t rfl, rfl⟩
    · cases into with
      | none => rfl
      | some t => exact absurd ((hfold rfl).mp rfl) (by simp [hbeneath])

/-- **Outside aggregates a value belongs to the rows of the table that it is read from.** -/
theorem isOf_of_resolveTree {r : Resolver} {v : Accumulator Symbol} {t : Term}
    (hv : FoldedBeneath r.statement v) (h : r.resolveTree v = .ok t) :
    t.IsOf r.statement.tableIds := by
  intro y hy
  obtain ⟨x, hx, hresolve, hbeneath⟩ :=
    exists_mem_of_forall₂ (Accumulator.visitFrom_of_traverse false v h) hy
  obtain ⟨hfold, hinto⟩ := hv x hx
  rw [hbeneath] at hfold
  exact Resolver.resolve_isOf hfold hinto hresolve

end NestedQuery
