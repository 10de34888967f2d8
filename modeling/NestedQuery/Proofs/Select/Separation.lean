import Mathlib.Logic.Relation
import NestedQuery.Proofs.Select.Lockstep

/-!
# Aggregates and finer groups

An aggregate belongs to an element, but the rows of a statement are grouped by the keys of all
elements, and only the first group of an element is looked at. A `Folding` is what this hangs on:
the joined tables, the keys, the tables of the element, and those that the aggregate reads.

Two tables outside the lineage are linked if a condition relates them. If no path of links leads
from a table that the aggregate reads to a table of a key, then any two joined rows of an element
can be mixed: the component of the tables that are read is taken from one, and the rest from the
other (`exists_mix`). So all groups of the element have the same rows to aggregate. If there is
such a path, the tables on it go in step over a suitable database, and two groups of one element
have nothing in common (`isSeparated_of_groupsAgree`). The conditions of this database read the
tables of the statement's own conditions, and are otherwise chosen for the purpose.
-/

namespace NestedQuery

open Database Relation

/-- An aggregate of a grouped statement. -/
structure Folding (s : Statement) where
  /-- The joined tables. -/
  kept : List TableId
  /-- What the joined rows are grouped by. -/
  keys : List ColumnRef
  /-- The tables of the row numbers that make up an element. -/
  lineage : List TableId
  /-- The tables that the aggregate reads. -/
  read : List TableId
  closed : IsClosed s kept
  keys_kept : ∀ c ∈ keys, c.table ∈ kept
  lineage_keys : ∀ t ∈ lineage, rowIdRef t ∈ keys
  read_kept : ∀ t ∈ read, t ∈ kept

namespace Folding

variable {s : Statement} {g : Folding s} {db : Database s} {ρ ρ' σ : JoinedRow}
  {t u v : TableId}

/-! ### Groups and elements -/

/-- The rows of the tables that the aggregate reads. -/
def combination (g : Folding s) (ρ : JoinedRow) : List (Option Nat) :=
  g.read.map ρ

/-- The joined rows in the group of a joined row. -/
def group (g : Folding s) (db : Database s) (ρ : JoinedRow) : List JoinedRow :=
  (db.selectedRows g.kept).filter fun σ =>
    g.keys.all fun c => db.value c σ == db.value c ρ

/-- The joined rows of the element of a joined row. -/
def element (g : Folding s) (db : Database s) (ρ : JoinedRow) : List JoinedRow :=
  (db.selectedRows g.kept).filter fun σ => g.lineage.all fun t => σ t == ρ t

/-- A joined row belongs to an element if it has rows of all tables of the lineage. -/
def HasElement (g : Folding s) (ρ : JoinedRow) : Prop :=
  ∀ t ∈ g.lineage, (ρ t).isSome

/-- All groups of an element have the same combinations. If no table is read, they all have the
empty one. -/
def GroupsAgree (g : Folding s) : Prop :=
  ∀ db : Database s, ∀ ρ ∈ db.selectedRows g.kept, g.HasElement ρ → ∀ ρ' ∈ g.element db ρ,
    ∀ x, x ∈ (g.group db ρ).map g.combination ↔ x ∈ (g.group db ρ').map g.combination

/-- Each group of an element has all combinations of the element. -/
def IsExact (g : Folding s) : Prop :=
  ∀ db : Database s, ∀ ρ ∈ db.selectedRows g.kept, g.HasElement ρ →
    ∀ x, x ∈ (g.group db ρ).map g.combination ↔ x ∈ (g.element db ρ).map g.combination

theorem mem_group_iff :
    σ ∈ g.group db ρ ↔
      σ ∈ db.selectedRows g.kept ∧ ∀ c ∈ g.keys, db.value c σ = db.value c ρ := by
  rw [group, List.mem_filter, List.all_eq_true]
  simp only [beq_iff_eq]

theorem mem_element_iff :
    σ ∈ g.element db ρ ↔ σ ∈ db.selectedRows g.kept ∧ ∀ t ∈ g.lineage, σ t = ρ t := by
  rw [element, List.mem_filter, List.all_eq_true]
  simp only [beq_iff_eq]

/-- Groups are finer than elements. -/
theorem group_subset_element : g.group db ρ ⊆ g.element db ρ := by
  intro σ hσ
  obtain ⟨hmem, hkeys⟩ := mem_group_iff.mp hσ
  exact mem_element_iff.mpr ⟨hmem, fun t ht => db.cell_rowId (hkeys _ (g.lineage_keys t ht))⟩

theorem element_eq (h : ρ' ∈ g.element db ρ) : g.element db ρ' = g.element db ρ := by
  obtain ⟨-, hagree⟩ := mem_element_iff.mp h
  refine List.filter_congr fun σ _ => ?_
  rw [Bool.eq_iff_iff, List.all_eq_true, List.all_eq_true]
  refine forall₂_congr fun t ht => ?_
  rw [hagree t ht]

/-- If each group has all combinations of its element, the groups of an element agree. -/
theorem groupsAgree_of_isExact (h : g.IsExact) : g.GroupsAgree := by
  intro db ρ hρ helement ρ' hρ' x
  obtain ⟨hmem, hagree⟩ := mem_element_iff.mp hρ'
  have helement' : g.HasElement ρ' := fun t ht => by
    rw [hagree t ht]
    exact helement t ht
  rw [h db ρ hρ helement x, h db ρ' hmem helement' x, element_eq hρ']

/-! ### Links -/

/-- The tables whose rows may limit what is joined to the tables of the keys and to those that are
read: a left join on which none of these hangs does not. -/
inductive IsRelevant (g : Folding s) : TableId → Prop
  /-- Tables of keys. -/
  | key {c : ColumnRef} : c ∈ g.keys → IsRelevant g c.table
  /-- Tables that the aggregate reads. -/
  | read {t : TableId} : t ∈ g.read → IsRelevant g t
  /-- Tables that the filter relates. -/
  | filter {t : TableId} : t ∈ s.filterTables → IsRelevant g t
  /-- The primary table, and those of inner joins. -/
  | fixed {t : TableId} : t ∈ g.kept → s.isFixed t → IsRelevant g t
  /-- Tables that the join condition of such a table reads. -/
  | condition {t u : TableId} : IsRelevant g t → u ∈ s.joinNeeds t → IsRelevant g u

/-- Two tables outside the lineage are related by the filter or by a join condition. -/
def IsLinked (g : Folding s) (u v : TableId) : Prop :=
  u ∉ g.lineage ∧ v ∉ g.lineage ∧ ((u ∈ s.filterTables ∧ v ∈ s.filterTables) ∨
    ∃ t, g.IsRelevant t ∧ u ∈ s.joinTables t ∧ v ∈ s.joinTables t)

/-- A path of links leads to the table from one that the aggregate reads. -/
def IsReached (g : Folding s) (t : TableId) : Prop :=
  ∃ r ∈ g.read, r ∉ g.lineage ∧ ReflTransGen g.IsLinked r t

/-- No key outside the lineage is reached. -/
def IsSeparated (g : Folding s) : Prop :=
  ∀ c ∈ g.keys, c.table ∉ g.lineage → ¬ g.IsReached c.table

theorem IsRelevant.mem_kept (h : g.IsRelevant t) : t ∈ g.kept := by
  induction h with
  | key hc => exact g.keys_kept _ hc
  | read ht => exact g.read_kept _ ht
  | filter ht => exact g.closed.filter_mem _ ht
  | fixed ht _ => exact ht
  | condition _ hu ih => exact g.closed.needs_mem _ ih _ hu

theorem IsRelevant.of_mem_joinTables (h : g.IsRelevant t) (hu : u ∈ s.joinTables t) :
    g.IsRelevant u := by
  rcases List.mem_cons.mp hu with rfl | hu
  · exact h
  · exact .condition h hu

theorem IsReached.not_mem_lineage (h : g.IsReached t) : t ∉ g.lineage := by
  obtain ⟨r, -, hr, hpath⟩ := h
  rcases hpath.cases_tail with rfl | ⟨u, -, hlink⟩
  · exact hr
  · exact hlink.2.1

theorem IsReached.tail (h : g.IsReached u) (hlink : g.IsLinked u v) : g.IsReached v := by
  obtain ⟨r, hread, hr, hpath⟩ := h
  exact ⟨r, hread, hr, hpath.tail hlink⟩

/-! ### Mixing -/

open Classical in
/-- Of the relevant tables, the rows that are reached are those of `ρ'`, the others those of
`ρ`. -/
noncomputable def mix (g : Folding s) (ρ ρ' : JoinedRow) : JoinedRow := fun t =>
  if g.IsRelevant t then if g.IsReached t then ρ' t else ρ t else none

theorem mix_of_isReached (ht : g.IsRelevant t) (h : g.IsReached t) : g.mix ρ ρ' t = ρ' t := by
  rw [mix, if_pos ht, if_pos h]

theorem mix_of_not_isReached (ht : g.IsRelevant t) (h : ¬ g.IsReached t) :
    g.mix ρ ρ' t = ρ t := by
  rw [mix, if_pos ht, if_neg h]

/-- On tables that are linked pairwise, the mixed row is one of the two. -/
theorem mix_eq_or_eq {ts : List TableId} (hts : ∀ t ∈ ts, g.IsRelevant t)
    (hlinks : ∀ u ∈ ts, ∀ v ∈ ts, u ∉ g.lineage → v ∉ g.lineage → g.IsLinked u v)
    (hagree : ∀ t ∈ g.lineage, ρ' t = ρ t) :
    (∀ t ∈ ts, g.mix ρ ρ' t = ρ' t) ∨ ∀ t ∈ ts, g.mix ρ ρ' t = ρ t := by
  -- If one of the tables is reached, so are all others outside the lineage: they are linked to it.
  by_cases hreached : ∃ u ∈ ts, g.IsReached u
  · obtain ⟨u, hu, hu'⟩ := hreached
    refine Or.inl fun v hv => ?_
    by_cases hlineage : v ∈ g.lineage
    · rw [mix_of_not_isReached (hts v hv) fun h => h.not_mem_lineage hlineage, hagree v hlineage]
    · exact mix_of_isReached (hts v hv)
        (hu'.tail (hlinks u hu v hv hu'.not_mem_lineage hlineage))
  · refine Or.inr fun v hv => mix_of_not_isReached (hts v hv) fun h => ?_
    exact hreached ⟨v, hv, h⟩

theorem fits_mix (hagree : ∀ t ∈ g.lineage, ρ' t = ρ t) (ht : g.IsRelevant t)
    (hρ : db.Fits t ρ) (hρ' : db.Fits t ρ') : db.Fits t (g.mix ρ ρ') := by
  rcases mix_eq_or_eq (fun u hu => ht.of_mem_joinTables hu)
    (fun u hu v hv hu' hv' => ⟨hu', hv', Or.inr ⟨t, ht, hu, hv⟩⟩) hagree with h | h
  · exact (fits_congr h).mpr hρ'
  · exact (fits_congr h).mpr hρ

theorem keeps_mix (hagree : ∀ t ∈ g.lineage, ρ' t = ρ t) (hρ : db.keeps ρ = true)
    (hρ' : db.keeps ρ' = true) : db.keeps (g.mix ρ ρ') = true := by
  rcases mix_eq_or_eq (g := g) (fun u hu => .filter hu)
    (fun u hu v hv hu' hv' => ⟨hu', hv', Or.inl ⟨hu, hv⟩⟩) hagree with h | h
  · rw [db.keeps_congr h, hρ']
  · rw [db.keeps_congr h, hρ]

end Folding

/-! ### Completing a row -/

namespace Database

variable {s : Statement} {db : Database s} {ρ : JoinedRow} {ts : List TableId} {t : TableId}

theorem exists_mem_addJoin (db : Database s) (ρ : JoinedRow) (hleft : s.isFixed t = false) :
    ∃ σ, σ ∈ db.addJoin ρ t := by
  rw [addJoin]
  split
  · rw [hleft]
    exact ⟨ρ, List.mem_singleton_self ρ⟩
  · exact ⟨_, List.mem_map.mpr ⟨_, List.mem_cons_self .., rfl⟩⟩

/-- **Left joins never stand in the way**: a row into which some tables fit can be changed at the
others so that they fit in too, if no condition of the former reads one of the latter. -/
theorem exists_fits {P : TableId → Prop} (hts : IsOrdered s ts)
    (hclosed : ∀ t ∈ ts, P t → ∀ u ∈ s.joinTables t, P u)
    (hleft : ∀ t ∈ ts, ¬ P t → s.isFixed t = false) (hfits : ∀ t ∈ ts, P t → db.Fits t ρ) :
    ∃ σ, (∀ t, t ∉ ts ∨ P t → σ t = ρ t) ∧ ∀ t ∈ ts, db.Fits t σ := by
  -- Tables are completed in the order in which they are joined, so the last one comes last.
  induction ts using List.reverseRecOn with
  | nil => exact ⟨ρ, fun _ _ => rfl, fun t ht => absurd ht List.not_mem_nil⟩
  | append_singleton ts t ih =>
    have hmem : ∀ u ∈ ts, u ∈ ts ++ [t] := fun u hu => List.mem_append_left _ hu
    have hlast : t ∈ ts ++ [t] := List.mem_append_right _ (List.mem_singleton_self t)
    obtain ⟨σ, hσ, hσfits⟩ := ih hts.init (fun u hu => hclosed u (hmem u hu))
      (fun u hu => hleft u (hmem u hu)) fun u hu => hfits u (hmem u hu)
    by_cases ht : P t
    · refine ⟨σ, fun u hu => hσ u (hu.imp_left fun h hu => h (hmem u hu)), fun u hu => ?_⟩
      rcases List.mem_append.mp hu with hu | hu
      · exact hσfits u hu
      · rw [List.mem_singleton.mp hu]
        refine (fits_congr fun v hv => ?_).mpr (hfits t hlast ht)
        exact hσ v (Or.inr (hclosed t hlast ht v hv))
    · -- The condition of an earlier table does not read this one, so its row may change.
      obtain ⟨τ, hτ⟩ := exists_mem_addJoin db (Function.update σ t none) (hleft t hlast ht)
      obtain ⟨hother, hfit⟩ := (mem_addJoin_iff (Function.update_self ..)).mp hτ
      have hsame : ∀ u, u ≠ t → τ u = σ u := fun u hu =>
        (hother u hu).trans (Function.update_of_ne hu _ _)
      refine ⟨τ, fun u hu => ?_, fun u hu => ?_⟩
      · have hut : u ≠ t := by
          rintro rfl
          rcases hu with hu | hu
          · exact hu hlast
          · exact ht hu
        rw [hsame u hut]
        exact hσ u (hu.imp_left fun h hu => h (hmem u hu))
      · rcases List.mem_append.mp hu with hu | hu
        · exact (fits_congr fun v hv => hsame v (hts.ne_last hu hv)).mpr (hσfits u hu)
        · exact List.mem_singleton.mp hu ▸ hfit

end Database

namespace Folding

variable {s : Statement} {g : Folding s} {db : Database s} {ρ ρ' σ : JoinedRow}
  {t u v : TableId}

/-- **Two joined rows of an element can be mixed** if the aggregate is separated from the keys:
there is a joined row in the group of the first that has the second's rows of the tables that are
read. -/
theorem exists_mix (h : g.IsSeparated) (hρ : ρ ∈ db.selectedRows g.kept)
    (hρ' : ρ' ∈ db.selectedRows g.kept) (hagree : ∀ t ∈ g.lineage, ρ' t = ρ t) :
    ∃ σ ∈ g.group db ρ, g.combination σ = g.combination ρ' := by
  obtain ⟨⟨hnull, hfits⟩, hkeeps⟩ := (mem_selectedRows_iff g.closed.toIsOrdered).mp hρ
  obtain ⟨⟨-, hfits'⟩, hkeeps'⟩ := (mem_selectedRows_iff g.closed.toIsOrdered).mp hρ'
  -- The mixed row has no tables that are not relevant; these are left joins, which complete it.
  obtain ⟨σ, hσ, hσfits⟩ := exists_fits g.closed.toIsOrdered
    (fun t _ ht u hu => ht.of_mem_joinTables hu)
    (fun t ht hnot => Bool.eq_false_iff.mpr fun hfixed => hnot (.fixed ht hfixed))
    (fun t ht hrel => fits_mix hagree hrel (hfits t ht) (hfits' t ht))
  have hrelevant : ∀ t, g.IsRelevant t → σ t = g.mix ρ ρ' t := fun t ht => hσ t (Or.inr ht)
  have hkeep : db.keeps σ = true := by
    rw [db.keeps_congr fun t ht => hrelevant t (.filter ht)]
    exact keeps_mix hagree hkeeps hkeeps'
  refine ⟨σ, mem_group_iff.mpr ⟨?_, fun c hc => ?_⟩, List.map_congr_left fun t ht => ?_⟩
  · refine (mem_selectedRows_iff g.closed.toIsOrdered).mpr ⟨⟨fun t ht => ?_, hσfits⟩, hkeep⟩
    rw [hσ t (Or.inl ht), mix, if_neg fun hrel => ht hrel.mem_kept]
  · have hnot : ¬ g.IsReached c.table := by
      by_cases hlineage : c.table ∈ g.lineage
      · exact fun hreached => hreached.not_mem_lineage hlineage
      · exact h c hc hlineage
    rw [Database.value, hrelevant _ (.key hc), mix_of_not_isReached (.key hc) hnot]
    rfl
  · rw [hrelevant t (.read ht)]
    by_cases hlineage : t ∈ g.lineage
    · rw [mix_of_not_isReached (.read ht) fun hreached => hreached.not_mem_lineage hlineage,
        hagree t hlineage]
    · exact mix_of_isReached (.read ht) ⟨t, ht, hlineage, .refl⟩

theorem isExact_of_isSeparated (h : g.IsSeparated) : g.IsExact := by
  intro db ρ hρ _ x
  constructor
  · intro hx
    obtain ⟨σ, hσ, rfl⟩ := List.mem_map.mp hx
    exact List.mem_map.mpr ⟨σ, group_subset_element hσ, rfl⟩
  · intro hx
    obtain ⟨ρ', hρ', rfl⟩ := List.mem_map.mp hx
    obtain ⟨hmem, hagree⟩ := mem_element_iff.mp hρ'
    obtain ⟨σ, hσ, hcombination⟩ := exists_mix h hρ hmem hagree
    exact List.mem_map.mpr ⟨σ, hσ, hcombination⟩

/-! ### In step -/

/-- What holds of a joined row in lockstep that has rows of the keys and of the tables read: it
has rows of all relevant tables. -/
theorem isSome_of_isRelevant (hσ : σ ∈ (lockstep s g.lineage).selectedRows g.kept)
    (hkeys : ∀ c ∈ g.keys, (σ c.table).isSome) (hread : ∀ t ∈ g.read, (σ t).isSome)
    (ht : g.IsRelevant t) : (σ t).isSome := by
  obtain ⟨⟨-, hfits⟩, hkeeps⟩ := (mem_selectedRows_iff g.closed.toIsOrdered).mp hσ
  have hlineage : ∀ t ∈ g.lineage, (σ t).isSome := fun t ht => hkeys _ (g.lineage_keys t ht)
  induction ht with
  | key hc => exact hkeys _ hc
  | read ht => exact hread _ ht
  | @filter t ht =>
    by_cases hmem : t ∈ g.lineage
    · exact hlineage t hmem
    · exact isSome_of_isInStep hkeeps ht hmem
  | fixed ht hfixed => exact (hfits _ ht).isSome_of_isFixed hfixed
  | @condition t u hrel hu ih =>
    by_cases hmem : u ∈ g.lineage
    · exact hlineage u hmem
    · obtain ⟨i, hi⟩ := Option.isSome_iff_exists.mp ih
      have hjoins := (hfits t hrel.mem_kept).joins hi
      exact isSome_of_isInStep (isInStep_of_joins hu hjoins) (List.mem_cons_of_mem _ hu) hmem

/-- Linked tables are in step. -/
theorem eq_of_isLinked (hσ : σ ∈ (lockstep s g.lineage).selectedRows g.kept)
    (hrelevant : ∀ t, g.IsRelevant t → (σ t).isSome) (h : g.IsLinked u v) : σ u = σ v := by
  obtain ⟨⟨-, hfits⟩, hkeeps⟩ := (mem_selectedRows_iff g.closed.toIsOrdered).mp hσ
  obtain ⟨hu', hv', ⟨hu, hv⟩ | ⟨t, ht, hu, hv⟩⟩ := h
  · exact eq_of_isInStep hkeeps hu hv hu' hv'
  · obtain ⟨i, hi⟩ := Option.isSome_iff_exists.mp (hrelevant t ht)
    have hjoins := (hfits t ht.mem_kept).joins hi
    by_cases hneeds : s.joinNeeds t = []
    · rw [Statement.joinTables, hneeds, List.mem_singleton] at hu hv
      rw [hu, hv]
    · obtain ⟨w, hw⟩ := List.exists_mem_of_ne_nil _ hneeds
      exact eq_of_isInStep (isInStep_of_joins hw hjoins) hu hv hu' hv'

theorem eq_of_reflTransGen (hσ : σ ∈ (lockstep s g.lineage).selectedRows g.kept)
    (hrelevant : ∀ t, g.IsRelevant t → (σ t).isSome) (h : ReflTransGen g.IsLinked u v) :
    σ u = σ v := by
  induction h with
  | refl => rfl
  | tail _ hlink ih => exact ih.trans (eq_of_isLinked hσ hrelevant hlink)

/-- **If the groups of an element always agree, the aggregate is separated from the keys.** Along
a path from a table that is read to one of a key, the row of ones in the group of the zeros would
have to be one and zero at once. -/
theorem isSeparated_of_groupsAgree (h : g.GroupsAgree) : g.IsSeparated := by
  rintro c hc hlineage ⟨r, hr, hr', hpath⟩
  have hzero : stepRow g.lineage g.kept 0 ∈ (lockstep s g.lineage).selectedRows g.kept :=
    stepRow_mem_selectedRows g.closed (Or.inl rfl)
  have hone : stepRow g.lineage g.kept 1 ∈ (lockstep s g.lineage).selectedRows g.kept :=
    stepRow_mem_selectedRows g.closed (Or.inr rfl)
  have hkept : ∀ t ∈ g.lineage, t ∈ g.kept := fun t ht => g.keys_kept _ (g.lineage_keys t ht)
  have helement : stepRow g.lineage g.kept 1 ∈
      g.element (lockstep s g.lineage) (stepRow g.lineage g.kept 0) :=
    mem_element_iff.mpr ⟨hone, fun t ht => stepRow_eq_stepRow (fun _ => ht) 1 0⟩
  -- The row of ones is in its own group, so the group of the zeros has its combination as well.
  have hself : g.combination (stepRow g.lineage g.kept 1) ∈
      (g.group (lockstep s g.lineage) (stepRow g.lineage g.kept 1)).map g.combination :=
    List.mem_map.mpr ⟨_, mem_group_iff.mpr ⟨hone, fun _ _ => rfl⟩, rfl⟩
  obtain ⟨σ, hσ, hcombination⟩ := List.mem_map.mp
    ((h _ _ hzero (fun t ht => isSome_stepRow (hkept t ht)) _ helement _).mpr hself)
  -- The row `σ` with this combination has the keys of the zeros, but what is read of the ones.
  obtain ⟨hmem, hvalues⟩ := mem_group_iff.mp hσ
  have hkeys : ∀ c ∈ g.keys, σ c.table = stepRow g.lineage g.kept 0 c.table := fun c hc =>
    lockstep_cell_injective (hvalues c hc)
  have hread : ∀ t ∈ g.read, σ t = stepRow g.lineage g.kept 1 t :=
    List.map_inj_left.mp hcombination
  have hrelevant : ∀ t, g.IsRelevant t → (σ t).isSome := fun t ht =>
    isSome_of_isRelevant hmem
      (fun c hc => by
        rw [hkeys c hc]
        exact isSome_stepRow (g.keys_kept c hc))
      (fun t ht => by
        rw [hread t ht]
        exact isSome_stepRow (g.read_kept t ht)) ht
  have hstep := eq_of_reflTransGen hmem hrelevant hpath
  rw [hread r hr, stepRow_of_mem (g.read_kept r hr) hr', hkeys c hc,
    stepRow_of_mem (g.keys_kept c hc) hlineage] at hstep
  exact absurd (Option.some.inj hstep) Nat.one_ne_zero

/-- **The groups of an element agree just if the aggregate is separated from the keys.** -/
theorem groupsAgree_iff_isSeparated : g.GroupsAgree ↔ g.IsSeparated :=
  ⟨isSeparated_of_groupsAgree, fun h => groupsAgree_of_isExact (isExact_of_isSeparated h)⟩

theorem isExact_iff_isSeparated : g.IsExact ↔ g.IsSeparated :=
  ⟨fun h => isSeparated_of_groupsAgree (groupsAgree_of_isExact h), isExact_of_isSeparated⟩

end Folding

end NestedQuery
