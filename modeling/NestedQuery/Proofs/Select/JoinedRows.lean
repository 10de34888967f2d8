import Mathlib.Data.List.Induction
import Mathlib.Logic.Function.Basic
import NestedQuery.Proofs.Query.Stages
import NestedQuery.Proofs.Select.Kept

/-!
# Joined rows

What a statement joins, over any rows. A `JoinedRow` has a row number for each table, or none
where a left join found no partner. A `Database` has the rows of the tables and says which of them
the join conditions and the filter relate; a condition says something about the rows of its own
table and of those that it reads, and of no other.

`Database.joinedRows` joins tables one after another, as a statement does. A row is among the
result iff each table fits in (`mem_joinedRows_iff`), which is for each table a question about the
tables of its join condition only (`fits_congr`).
-/

namespace NestedQuery

/-- The tables that the join condition of a table relates. -/
def Statement.joinTables (s : Statement) (t : TableId) : List TableId :=
  t :: s.joinNeeds t

/-- The tables that the filter relates. -/
def Statement.filterTables (s : Statement) : List TableId :=
  (s.filter?.map Term.neededTables).getD []

/-- The row of each table that a joined row is made of, by its number. -/
abbrev JoinedRow := TableId → Option Nat

/-- What the joined rows of a statement hang on. Conditions, filter and columns are not interpreted:
a join condition and the filter are any functions of the rows of the tables that they name, and a
column is any function of the row of its table, as long as row numbers tell rows apart. So what is
said of all databases is said of all such functions, not of those that the terms of the statement
stand for. -/
structure Database (s : Statement) where
  /-- The row numbers of a table. -/
  rows : TableId → List Nat
  /-- Whether the join condition of a table holds. -/
  joins : TableId → JoinedRow → Bool
  /-- Whether the filter holds. -/
  keeps : JoinedRow → Bool
  /-- The value of a column, or of its absence, up to being the same for a `GROUP BY`. -/
  cell : ColumnRef → Option Nat → Nat
  joins_congr : ∀ {t : TableId} {ρ ρ' : JoinedRow},
    (∀ u ∈ s.joinTables t, ρ u = ρ' u) → joins t ρ = joins t ρ'
  joins_primary : ∀ ρ, joins 0 ρ = true
  keeps_congr : ∀ {ρ ρ' : JoinedRow}, (∀ u ∈ s.filterTables, ρ u = ρ' u) → keeps ρ = keeps ρ'
  keeps_all : s.filter? = none → ∀ ρ, keeps ρ = true
  cell_rowId : ∀ {t : TableId} {x y : Option Nat},
    cell (rowIdRef t) x = cell (rowIdRef t) y → x = y

namespace Database

variable {s : Statement}

/-- A column's value in a joined row. -/
def value (db : Database s) (c : ColumnRef) (ρ : JoinedRow) : Nat :=
  db.cell c (ρ c.table)

/-- The rows of a table that a joined row can be extended with. -/
def partners (db : Database s) (ρ : JoinedRow) (t : TableId) : List Nat :=
  (db.rows t).filter fun i => db.joins t (Function.update ρ t (some i))

/-- A joined row, extended with a table. Without partners it is dropped if the join is an inner
one. -/
def addJoin (db : Database s) (ρ : JoinedRow) (t : TableId) : List JoinedRow :=
  match db.partners ρ t with
  | [] => if s.isFixed t then [] else [ρ]
  | i :: is => (i :: is).map fun i => Function.update ρ t (some i)

/-- The rows of tables that are joined in order. -/
def joinedRows (db : Database s) (ts : List TableId) : List JoinedRow :=
  ts.foldl (fun ρs t => ρs.flatMap fun ρ => db.addJoin ρ t) [fun _ => none]

/-- The joined rows that the filter keeps. -/
def selectedRows (db : Database s) (ts : List TableId) : List JoinedRow :=
  (db.joinedRows ts).filter db.keeps

/-- A table fits into a joined row: its row is a partner, or a left join found none. -/
def Fits (db : Database s) (t : TableId) (ρ : JoinedRow) : Prop :=
  match ρ t with
  | some i => i ∈ db.rows t ∧ db.joins t ρ = true
  | none => s.isFixed t = false ∧
      ∀ i ∈ db.rows t, db.joins t (Function.update ρ t (some i)) = false

variable {db : Database s} {ρ ρ' σ : JoinedRow} {t : TableId} {ts : List TableId}

theorem fits_some_iff {i : Nat} (hi : ρ t = some i) :
    db.Fits t ρ ↔ i ∈ db.rows t ∧ db.joins t ρ = true := by
  rw [Fits, hi]

theorem fits_none_iff (hnone : ρ t = none) :
    db.Fits t ρ ↔ s.isFixed t = false ∧
      ∀ i ∈ db.rows t, db.joins t (Function.update ρ t (some i)) = false := by
  rw [Fits, hnone]

/-- **Whether a table fits in hangs on the tables of its join condition.** -/
theorem fits_congr (h : ∀ u ∈ s.joinTables t, ρ u = ρ' u) : db.Fits t ρ ↔ db.Fits t ρ' := by
  have hself : ρ t = ρ' t := h t (List.mem_cons_self ..)
  cases hi : ρ t with
  | some i => rw [fits_some_iff hi, fits_some_iff (hself ▸ hi), db.joins_congr h]
  | none =>
    have hupdate : ∀ i, db.joins t (Function.update ρ t (some i)) =
        db.joins t (Function.update ρ' t (some i)) := by
      intro i
      refine db.joins_congr fun u hu => ?_
      by_cases hut : u = t
      · rw [hut, Function.update_self, Function.update_self]
      · rw [Function.update_of_ne hut, Function.update_of_ne hut, h u hu]
    rw [fits_none_iff hi, fits_none_iff (hself ▸ hi)]
    simp only [hupdate]

/-- Where a table fits in and there is a row of it, its join condition holds. -/
theorem Fits.joins (h : db.Fits t ρ) {i : Nat} (hi : ρ t = some i) : db.joins t ρ = true :=
  ((fits_some_iff hi).mp h).2

theorem Fits.isSome_of_isFixed (h : db.Fits t ρ) (hfixed : s.isFixed t) : (ρ t).isSome := by
  cases hi : ρ t with
  | some i => rfl
  | none => exact absurd hfixed (Bool.eq_false_iff.mp ((fits_none_iff hi).mp h).1)

theorem mem_partners_iff {i : Nat} :
    i ∈ db.partners ρ t ↔ i ∈ db.rows t ∧ db.joins t (Function.update ρ t (some i)) = true :=
  List.mem_filter

theorem partners_eq_nil_iff :
    db.partners ρ t = [] ↔
      ∀ i ∈ db.rows t, db.joins t (Function.update ρ t (some i)) = false := by
  rw [partners, List.filter_eq_nil_iff]
  simp only [Bool.not_eq_true]

/-- **What one join adds**: the table fits in, and the other tables stay. -/
theorem mem_addJoin_iff (hσ : σ t = none) :
    ρ ∈ db.addJoin σ t ↔ (∀ u, u ≠ t → ρ u = σ u) ∧ db.Fits t ρ := by
  have heq : ∀ x, (∀ u, u ≠ t → ρ u = σ u) → ρ t = x → ρ = Function.update σ t x := by
    intro x hother hself
    funext u
    by_cases hut : u = t
    · rw [hut, Function.update_self, hself]
    · rw [Function.update_of_ne hut, hother u hut]
  have hsame : Function.update σ t none = σ := by rw [← hσ, Function.update_eq_self]
  -- Without partners a left join leaves the row as it is; with partners each of them extends it.
  rw [addJoin]
  split
  · rename_i hnil
    have hnone := partners_eq_nil_iff.mp hnil
    constructor
    · intro h
      split at h
      · exact absurd h List.not_mem_nil
      · rename_i hleft
        obtain rfl := List.mem_singleton.mp h
        exact ⟨fun _ _ => rfl, (fits_none_iff hσ).mpr ⟨Bool.not_eq_true _ ▸ hleft, hnone⟩⟩
    · rintro ⟨hother, hfits⟩
      cases hi : ρ t with
      | some i =>
        obtain ⟨hrow, hjoins⟩ := (fits_some_iff hi).mp hfits
        rw [heq _ hother hi, hnone i hrow] at hjoins
        exact absurd hjoins Bool.false_ne_true
      | none =>
        rw [if_neg (Bool.eq_false_iff.mp ((fits_none_iff hi).mp hfits).1),
          heq _ hother hi, hsame]
        exact List.mem_singleton_self _
  · rename_i i is hcons
    rw [← hcons, List.mem_map]
    constructor
    · rintro ⟨j, hj, rfl⟩
      obtain ⟨hrow, hjoins⟩ := mem_partners_iff.mp hj
      exact ⟨fun u hu => Function.update_of_ne hu _ _,
        (fits_some_iff (Function.update_self ..)).mpr ⟨hrow, hjoins⟩⟩
    · rintro ⟨hother, hfits⟩
      cases hj : ρ t with
      | some j =>
        have hρ := heq _ hother hj
        obtain ⟨hrow, hjoins⟩ := (fits_some_iff hj).mp hfits
        exact ⟨j, mem_partners_iff.mpr ⟨hrow, hρ ▸ hjoins⟩, hρ.symm⟩
      | none =>
        have hnone := ((fits_none_iff hj).mp hfits).2
        rw [heq _ hother hj] at hnone
        simp only [Function.update_idem] at hnone
        have hnil := partners_eq_nil_iff.mpr hnone
        rw [hcons] at hnil
        exact absurd hnil (List.cons_ne_nil _ _)

/-- The tables are in order, and the join condition of each reads no later one. -/
structure IsOrdered (s : Statement) (ts : List TableId) : Prop where
  sorted : ts.Pairwise (· < ·)
  needs_le : ∀ t ∈ ts, ∀ u ∈ s.joinNeeds t, u ≤ t

theorem IsOrdered.init (h : IsOrdered s (ts ++ [t])) : IsOrdered s ts where
  sorted := (List.pairwise_append.mp h.sorted).1
  needs_le u hu := h.needs_le u (List.mem_append_left _ hu)

theorem IsOrdered.lt_last (h : IsOrdered s (ts ++ [t])) {u : TableId} (hu : u ∈ ts) : u < t :=
  (List.pairwise_append.mp h.sorted).2.2 u hu t (List.mem_singleton_self _)

/-- A later table is none of those that a join condition relates. -/
theorem IsOrdered.ne_last (h : IsOrdered s (ts ++ [t])) {u v : TableId} (hu : u ∈ ts)
    (hv : v ∈ s.joinTables u) : v ≠ t := by
  have hlt := h.lt_last hu
  rcases List.mem_cons.mp hv with rfl | hv
  · exact Nat.ne_of_lt hlt
  · have hle := h.init.needs_le u hu v hv
    exact Nat.ne_of_lt (Nat.lt_of_le_of_lt hle hlt)

/-- **The joined rows are those into which every table fits.** -/
theorem mem_joinedRows_iff (hts : IsOrdered s ts) :
    ρ ∈ db.joinedRows ts ↔ (∀ t, t ∉ ts → ρ t = none) ∧ ∀ t ∈ ts, db.Fits t ρ := by
  induction ts using List.reverseRecOn generalizing ρ with
  | nil =>
    rw [joinedRows, List.foldl_nil, List.mem_singleton]
    constructor
    · rintro rfl
      exact ⟨fun _ _ => rfl, fun _ ht => absurd ht List.not_mem_nil⟩
    · exact fun h => funext fun t => h.1 t List.not_mem_nil
  | append_singleton ts t ih =>
    have hlast : t ∉ ts := fun ht => Nat.lt_irrefl t (hts.lt_last ht)
    rw [joinedRows, List.foldl_append, List.foldl_cons, List.foldl_nil, ← joinedRows,
      List.mem_flatMap]
    constructor
    · rintro ⟨σ, hσ, hρ⟩
      obtain ⟨hnull, hfits⟩ := (ih hts.init).mp hσ
      obtain ⟨hother, hfit⟩ := (mem_addJoin_iff (hnull t hlast)).mp hρ
      refine ⟨fun u hu => ?_, fun u hu => ?_⟩
      · rw [List.mem_append, List.mem_singleton, not_or] at hu
        rw [hother u hu.2, hnull u hu.1]
      · rcases List.mem_append.mp hu with hu | hu
        · exact (fits_congr fun v hv => hother v (hts.ne_last hu hv)).mpr (hfits u hu)
        · exact List.mem_singleton.mp hu ▸ hfit
    -- Conversely, without the row of `t` it is a joined row of the tables before.
    · rintro ⟨hnull, hfits⟩
      have hother : ∀ u, u ≠ t → ρ u = Function.update ρ t none u :=
        fun u hu => (Function.update_of_ne hu _ _).symm
      refine ⟨Function.update ρ t none, (ih hts.init).mpr ⟨fun u hu => ?_, fun u hu => ?_⟩, ?_⟩
      · by_cases hut : u = t
        · rw [hut, Function.update_self]
        · rw [← hother u hut]
          refine hnull u fun hmem => ?_
          rcases List.mem_append.mp hmem with hmem | hmem
          · exact hu hmem
          · exact hut (List.mem_singleton.mp hmem)
      · exact (fits_congr fun v hv => hother v (hts.ne_last hu hv)).mp
          (hfits u (List.mem_append_left _ hu))
      · exact (mem_addJoin_iff (Function.update_self ..)).mpr
          ⟨hother, hfits t (List.mem_append_right _ (List.mem_singleton_self _))⟩

theorem mem_selectedRows_iff (hts : IsOrdered s ts) :
    ρ ∈ db.selectedRows ts ↔
      ((∀ t, t ∉ ts → ρ t = none) ∧ ∀ t ∈ ts, db.Fits t ρ) ∧ db.keeps ρ = true := by
  rw [selectedRows, List.mem_filter, mem_joinedRows_iff hts]

/-! ### Closed lists of tables -/

/-- The tables are in order, and with them are all that their conditions and the filter read. -/
structure IsClosed (s : Statement) (ts : List TableId) : Prop extends IsOrdered s ts where
  needs_mem : ∀ t ∈ ts, ∀ u ∈ s.joinNeeds t, u ∈ ts
  filter_mem : ∀ t ∈ s.filterTables, t ∈ ts

theorem IsClosed.mem_of_mem_joinTables (h : IsClosed s ts) (ht : t ∈ ts) {u : TableId}
    (hu : u ∈ s.joinTables t) : u ∈ ts := by
  rcases List.mem_cons.mp hu with rfl | hu
  · exact ht
  · exact h.needs_mem t ht u hu

end Database

/-- What an accepted statement keeps is closed. -/
theorem Stages.isClosed_kept {st : Stages} (hst : st.IsChecked) :
    Database.IsClosed st.statement st.kept := by
  have hneeds : ∀ t, ∀ u ∈ st.statement.joinNeeds t, u ∈ st.statement.tableIds ∧ u ≤ t := by
    intro t u hu
    rw [Statement.joinNeeds] at hu
    cases hj : st.statement.join? t with
    | none =>
      rw [hj] at hu
      exact absurd hu List.not_mem_nil
    | some j =>
      obtain ⟨on, hon, hplain, hle⟩ := hst.statement.joins t j hj
      rw [hj, Option.bind_some, hon, Option.map_some, Option.getD_some] at hu
      obtain ⟨c, hc, rfl⟩ := hplain.mem_neededTables_iff.mp hu
      exact ⟨hplain.isOf.mem_of_mem_neededTables hu, hle c hc⟩
  have hsorted : st.statement.tableIds.Pairwise (· < ·) := List.pairwise_lt_range
  obtain ⟨p, hp⟩ := st.statement.kept_eq_filter st.draft.neededTables
  refine ⟨⟨?_, fun t _ u hu => (hneeds t u hu).2⟩, fun t ht u hu => ?_, fun t ht => ?_⟩
  · rw [kept, hp]
    exact hsorted.sublist List.filter_sublist
  · exact Statement.mem_kept_iff.mpr
      (.condition (Statement.mem_kept_iff.mp ht) (hneeds t u hu).1 hu)
  · have hmem : t ∈ st.statement.clauseNeeds := List.mem_append_left _ ht
    rw [Statement.filterTables] at ht
    cases hf : st.statement.filter? with
    | none =>
      rw [hf] at ht
      exact absurd ht List.not_mem_nil
    | some filter =>
      have hplain := hst.statement.filter filter hf
      rw [hf, Option.map_some, Option.getD_some] at ht
      exact Statement.mem_kept_iff.mpr (.clause (hplain.isOf.mem_of_mem_neededTables ht) hmem)

end NestedQuery
