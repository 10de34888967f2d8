import Mathlib.Data.List.Basic
import Mathlib.Logic.Function.Iterate
import NestedQuery.Select.Kept

/-!
# The tables that are kept

What `Statement.kept` reaches is the least set of tables that has the ones that are needed and is
closed under what join conditions need (`mem_kept_iff`). Every pass over the tables but the last
marks a further table, so there is at most one pass for each of them, and one more
(`exists_closeNeeds_eq_iterate`).
-/

namespace NestedQuery.Statement

/-- The least set of tables that a statement needs if `needed` are needed. -/
inductive IsNeeded (s : Statement) (needed : List TableId) : TableId → Prop
  /-- The primary table, and those of inner joins. -/
  | fixed {t : TableId} : t ∈ s.tableIds → s.isFixed t → IsNeeded s needed t
  /-- What is needed from outside. -/
  | needed {t : TableId} : t ∈ s.tableIds → t ∈ needed → IsNeeded s needed t
  /-- What the filter and the ordering need. -/
  | clause {t : TableId} : t ∈ s.tableIds → t ∈ s.clauseNeeds → IsNeeded s needed t
  /-- What the join condition of such a table needs. -/
  | condition {t u : TableId} :
      IsNeeded s needed u → t ∈ s.tableIds → t ∈ s.joinNeeds u → IsNeeded s needed t

variable {s : Statement} {needed marked marked' ids : List TableId} {t u id : TableId}

/-! ### Markings -/

/-- The list marks tables of the statement: it has each at most once, and in their order. -/
def IsMarking (s : Statement) (marked : List TableId) : Prop :=
  ∃ p : TableId → Bool, marked = s.tableIds.filter p

theorem IsMarking.sublist_tableIds (h : s.IsMarking marked) : marked.Sublist s.tableIds := by
  obtain ⟨p, rfl⟩ := h
  exact List.filter_sublist

/-- A marking is part of another one as soon as its tables are. -/
theorem IsMarking.sublist (h : s.IsMarking marked) (h' : s.IsMarking marked')
    (hsub : marked ⊆ marked') : marked.Sublist marked' := by
  obtain ⟨p, hp⟩ := h
  obtain ⟨q, hq⟩ := h'
  -- Both are filters of the same list, and the smaller one filters the larger one.
  have hfilter : marked = marked'.filter p := by
    rw [hq, List.filter_filter]
    conv_lhs => rw [hp]
    refine List.filter_congr fun t ht => ?_
    by_cases hpt : p t
    · have hmem : t ∈ marked' := hsub (hp ▸ List.mem_filter.mpr ⟨ht, hpt⟩)
      rw [hq, List.mem_filter] at hmem
      rw [hpt, hmem.2, Bool.and_self]
    · rw [Bool.not_eq_true] at hpt
      rw [hpt, Bool.false_and]
  rw [hfilter]
  exact List.filter_sublist

/-! ### One pass -/

theorem IsMarking.markNeeds (h : s.IsMarking marked) (id : TableId) :
    s.IsMarking (s.markNeeds marked id) := by
  unfold Statement.markNeeds
  split
  · exact ⟨_, rfl⟩
  · exact h

theorem mem_markNeeds (h : s.IsMarking marked) :
    t ∈ s.markNeeds marked id ↔
      t ∈ marked ∨ id ∈ marked ∧ t ∈ s.tableIds ∧ t ∈ s.joinNeeds id := by
  unfold markNeeds
  by_cases hid : id ∈ marked
  · rw [if_pos (List.contains_iff_mem.mpr hid), List.mem_filter, Bool.or_eq_true,
      List.contains_iff_mem, List.contains_iff_mem]
    constructor
    · rintro ⟨hids, hmem | hneeds⟩
      · exact Or.inl hmem
      · exact Or.inr ⟨hid, hids, hneeds⟩
    · rintro (hmem | ⟨-, hids, hneeds⟩)
      · exact ⟨h.sublist_tableIds.subset hmem, Or.inl hmem⟩
      · exact ⟨hids, Or.inr hneeds⟩
  · rw [if_neg (by rwa [List.contains_iff_mem])]
    exact ⟨Or.inl, fun hmem => hmem.resolve_right fun hneeds => hid hneeds.1⟩

/-- Passing over some tables gives a marking, which has lost no table. -/
theorem IsMarking.foldl_markNeeds (h : s.IsMarking marked) (ids : List TableId) :
    s.IsMarking (ids.foldl s.markNeeds marked) ∧ marked ⊆ ids.foldl s.markNeeds marked := by
  induction ids generalizing marked with
  | nil => exact ⟨h, fun _ ht => ht⟩
  | cons id ids ih =>
    obtain ⟨hmarking, hsub⟩ := ih (h.markNeeds id)
    exact ⟨hmarking, fun _ ht => hsub ((mem_markNeeds h).mpr (Or.inl ht))⟩

/-- What the condition of a marked table needs is marked where the pass comes to that table. -/
theorem mem_foldl_markNeeds (h : s.IsMarking marked) (hids : u ∈ ids) (hu : u ∈ marked)
    (ht : t ∈ s.tableIds) (hneeds : t ∈ s.joinNeeds u) : t ∈ ids.foldl s.markNeeds marked := by
  induction ids generalizing marked with
  | nil => exact absurd hids List.not_mem_nil
  | cons id ids ih =>
    rcases List.mem_cons.mp hids with rfl | hids
    · obtain ⟨-, hsub⟩ := (h.markNeeds u).foldl_markNeeds ids
      exact hsub ((mem_markNeeds h).mpr (Or.inr ⟨hu, ht, hneeds⟩))
    · exact ih (h.markNeeds id) hids ((mem_markNeeds h).mpr (Or.inl hu))

theorem IsMarking.markAll (h : s.IsMarking marked) : s.IsMarking (s.markAll marked) :=
  (h.foldl_markNeeds s.tableIds).1

/-- A pass loses no table. -/
theorem IsMarking.sublist_markAll (h : s.IsMarking marked) : marked.Sublist (s.markAll marked) :=
  h.sublist h.markAll (h.foldl_markNeeds s.tableIds).2

theorem mem_markAll_of_joinNeeds (h : s.IsMarking marked) (hu : u ∈ marked) (ht : t ∈ s.tableIds)
    (hneeds : t ∈ s.joinNeeds u) : t ∈ s.markAll marked :=
  mem_foldl_markNeeds h (h.sublist_tableIds.subset hu) hu ht hneeds

/-- A pass marks only what is needed. -/
theorem isNeeded_of_mem_markAll (h : s.IsMarking marked)
    (hmarked : ∀ t ∈ marked, s.IsNeeded needed t) (ht : t ∈ s.markAll marked) :
    s.IsNeeded needed t := by
  unfold markAll at ht
  revert ht hmarked h
  generalize s.tableIds = ids
  intro h hmarked ht
  induction ids generalizing marked with
  | nil => exact hmarked t ht
  | cons id ids ih =>
    refine ih (h.markNeeds id) (fun u hu => ?_) ht
    rcases (mem_markNeeds h).mp hu with hu | ⟨hid, hids, hneeds⟩
    · exact hmarked u hu
    · exact .condition (hmarked id hid) hids hneeds

/-! ### All passes -/

/-- **The passes come to an end**: each but the last marks a further table, and the last one marks
none. -/
theorem exists_closeNeeds_eq_iterate (h : s.IsMarking marked) :
    ∃ k, marked.length + k ≤ s.tableIds.length ∧ s.closeNeeds marked = s.markAll^[k] marked ∧
      (∀ i < k, (s.markAll^[i] marked).length < (s.markAll^[i + 1] marked).length) ∧
      s.markAll (s.closeNeeds marked) = s.closeNeeds marked := by
  -- The induction is on the passes, each of which marks more tables than the one before.
  induction marked using closeNeeds.induct s with
  | case1 marked next hlt ih =>
    obtain ⟨k, hk, heq, hgrows, hstable⟩ := ih h.markAll
    have hclose : s.closeNeeds marked = s.closeNeeds (s.markAll marked) := by
      rw [closeNeeds]
      exact if_pos hlt
    refine ⟨k + 1, ?_, ?_, ?_, ?_⟩
    · have : marked.length < (s.markAll marked).length := hlt
      omega
    · rw [hclose, heq, Function.iterate_succ_apply]
    · intro i hi
      cases i with
      | zero => exact hlt
      | succ i => exact hgrows i (by omega)
    · rw [hclose, hstable]
  | case2 marked next hge =>
    have hstable : marked = s.markAll marked :=
      h.sublist_markAll.eq_of_length_le (Nat.le_of_not_lt hge)
    have hclose : s.closeNeeds marked = s.markAll marked := by
      rw [closeNeeds]
      exact if_neg hge
    refine ⟨0, h.sublist_tableIds.length_le, hclose.trans hstable.symm, nofun, ?_⟩
    rw [hclose, ← hstable, ← hstable]

theorem IsMarking.closeNeeds (h : s.IsMarking marked) :
    s.IsMarking (s.closeNeeds marked) ∧ marked ⊆ s.closeNeeds marked := by
  obtain ⟨k, -, heq, -⟩ := exists_closeNeeds_eq_iterate h
  rw [heq]
  clear heq
  induction k with
  | zero => exact ⟨h, fun _ ht => ht⟩
  | succ k ih =>
    rw [Function.iterate_succ_apply']
    exact ⟨ih.1.markAll, List.Subset.trans ih.2 ih.1.sublist_markAll.subset⟩

/-- The passes mark only what is needed. -/
theorem isNeeded_of_mem_closeNeeds (h : s.IsMarking marked)
    (hmarked : ∀ t ∈ marked, s.IsNeeded needed t) (ht : t ∈ s.closeNeeds marked) :
    s.IsNeeded needed t := by
  induction marked using closeNeeds.induct s with
  | case1 marked next hlt ih =>
    rw [closeNeeds, if_pos hlt] at ht
    exact ih h.markAll (fun u hu => isNeeded_of_mem_markAll h hmarked hu) ht
  | case2 marked next hge =>
    rw [closeNeeds, if_neg hge] at ht
    exact isNeeded_of_mem_markAll h hmarked ht

/-! ### The kept tables -/

theorem isMarking_seeds (s : Statement) (needed : List TableId) : s.IsMarking (s.seeds needed) :=
  ⟨_, rfl⟩

/-- The tables that the first pass starts from. -/
theorem mem_seeds_iff :
    t ∈ s.seeds needed ↔ t ∈ s.tableIds ∧ (s.isFixed t ∨ t ∈ needed ∨ t ∈ s.clauseNeeds) := by
  rw [seeds, List.mem_filter, Bool.or_eq_true, Bool.or_eq_true, List.contains_iff_mem,
    List.contains_iff_mem, or_assoc]

/-- **The kept tables are the least closed set.** -/
theorem mem_kept_iff : t ∈ s.kept needed ↔ s.IsNeeded needed t := by
  have hseeds := s.isMarking_seeds needed
  rw [kept]
  constructor
  · intro h
    refine isNeeded_of_mem_closeNeeds hseeds (fun u hu => ?_) h
    obtain ⟨hids, hfixed | hneeded | hclause⟩ := mem_seeds_iff.mp hu
    · exact .fixed hids hfixed
    · exact .needed hids hneeded
    · exact .clause hids hclause
  · intro h
    obtain ⟨hmarking, hsub⟩ := hseeds.closeNeeds
    induction h with
    | fixed hids hfixed => exact hsub (mem_seeds_iff.mpr ⟨hids, Or.inl hfixed⟩)
    | needed hids hneeded => exact hsub (mem_seeds_iff.mpr ⟨hids, Or.inr (Or.inl hneeded)⟩)
    | clause hids hclause => exact hsub (mem_seeds_iff.mpr ⟨hids, Or.inr (Or.inr hclause)⟩)
    | condition _ hids hneeds ih =>
      obtain ⟨-, -, -, -, hstable⟩ := exists_closeNeeds_eq_iterate hseeds
      rw [← hstable]
      exact mem_markAll_of_joinNeeds hmarking ih hids hneeds

/-- The kept tables stand in the order of the statement. -/
theorem kept_eq_filter (s : Statement) (needed : List TableId) :
    ∃ p, s.kept needed = s.tableIds.filter p :=
  (s.isMarking_seeds needed).closeNeeds.1

theorem filter_contains_kept (s : Statement) (needed : List TableId) :
    s.tableIds.filter (s.kept needed).contains = s.kept needed := by
  obtain ⟨p, hp⟩ := s.kept_eq_filter needed
  rw [hp]
  refine List.filter_congr fun t ht => ?_
  rw [Bool.eq_iff_iff, List.contains_iff_mem, List.mem_filter]
  exact and_iff_right ht

end NestedQuery.Statement
