import NestedQuery.Graph.Plan

/-!
# Plans that are built step by step

`Plan.Built` are the plans that grow from a root by steps whose indices are in range. In such a
plan level 0 is the only root, parents come before children, the lists of children are the inverse
of the parents, and every index is in range (`Built.wellFormed`).
-/

namespace NestedQuery

/-- What stands at a place of a list to which one item is added. -/
theorem getElem?_concat_eq_some_iff {α : Type} {l : List α} {a b : α} {i : Nat} :
    (l ++ [a])[i]? = some b ↔ l[i]? = some b ∨ i = l.length ∧ b = a := by
  rcases Nat.lt_trichotomy i l.length with hlt | rfl | hgt
  · rw [List.getElem?_append_left hlt, or_iff_left fun h => Nat.ne_of_lt hlt h.1]
  · rw [List.getElem?_concat_length, List.getElem?_eq_none (Nat.le_refl _), Option.some.injEq]
    exact ⟨fun h => Or.inr ⟨rfl, h.symm⟩, fun h => (h.resolve_left nofun).2.symm⟩
  · rw [List.getElem?_eq_none (by rw [List.length_append]; exact hgt),
      List.getElem?_eq_none (Nat.le_of_lt hgt)]
    exact ⟨nofun, fun h => absurd h (not_or.mpr ⟨nofun, fun h => Nat.ne_of_gt hgt h.1⟩)⟩

namespace Plan

/-- The plans that grow from a root by steps whose indices are in range. -/
inductive Built : Plan → Prop
  | root (rowId table : String) : Built (root rowId table)
  | addRowId {p : Plan} (name : String) : Built p → Built (p.addRowId name).2
  | addLevel {p : Plan} {parent rowId : Nat} (single : Bool) (target : Target)
      (label table : String) :
      Built p → parent < p.levels.length → rowId < p.rowIds.length →
      Built (p.addLevel ⟨some parent, rowId, single, target, label, table, []⟩)
  | addColumn {p : Plan} {c : PlanColumn} :
      Built p → c.level < p.levels.length → Built (p.addColumn c)
  | addWitness {p : Plan} {level : Nat} {w : Witness} :
      Built p → level < p.levels.length → w.rowId < p.rowIds.length →
      Built (p.addWitness level w)

/-- The levels whose parent a level is. -/
def childLevels (p : Plan) (i : Nat) : List Nat :=
  (List.range p.levels.length).filter fun j => (p.levels[j]?.bind Level.parent?) == some i

/-- Level 0 is the only root, parents come before children, children are those levels whose parent
a level is, and indices are in range. -/
structure WellFormed (p : Plan) : Prop where
  /-- There is a level. -/
  levels_pos : 0 < p.levels.length
  /-- Each level has a list of children. -/
  childLists_length : p.childLists.length = p.levels.length
  /-- The children of a level, in order. -/
  children_eq : ∀ i < p.levels.length, p.children i = p.childLevels i
  /-- Only level 0 has no parent. -/
  parent_eq_none_iff : ∀ i (level : Level), p.levels[i]? = some level →
    (level.parent? = none ↔ i = 0)
  /-- Parents come before children. -/
  parent_lt : ∀ i (level : Level), p.levels[i]? = some level → ∀ j, level.parent? = some j → j < i
  /-- The row number of a level is one of the plan. -/
  rowId_lt : ∀ level ∈ p.levels, level.rowId < p.rowIds.length
  /-- The row numbers of witnesses are some of the plan. -/
  witness_lt : ∀ level ∈ p.levels, ∀ w ∈ level.witnesses, w.rowId < p.rowIds.length
  /-- Columns belong to levels of the plan. -/
  column_lt : ∀ c ∈ p.columns, c.level < p.levels.length

theorem mem_childLevels {p : Plan} {i j : Nat} :
    j ∈ p.childLevels i ↔ ∃ level, p.levels[j]? = some level ∧ level.parent? = some i := by
  rw [childLevels, List.mem_filter, List.mem_range, beq_iff_eq, Option.bind_eq_some_iff]
  constructor
  · exact fun ⟨_, h⟩ => h
  · rintro ⟨level, hlevel, hparent⟩
    exact ⟨(List.getElem?_eq_some_iff.mp hlevel).1, level, hlevel, hparent⟩

theorem nodup_childLevels (p : Plan) (i : Nat) : (p.childLevels i).Nodup :=
  List.nodup_range.filter _

theorem WellFormed.lt_of_mem_childLevels {p : Plan} (hp : p.WellFormed) {i j : Nat}
    (h : j ∈ p.childLevels i) : i < j ∧ j < p.levels.length := by
  obtain ⟨level, hlevel, hparent⟩ := mem_childLevels.mp h
  exact ⟨hp.parent_lt j level hlevel i hparent, (List.getElem?_eq_some_iff.mp hlevel).1⟩

theorem rowIds_length_le_addRowId (p : Plan) (name : String) :
    p.rowIds.length ≤ (p.addRowId name).2.rowIds.length := by
  rw [addRowId]
  split
  · exact Nat.le_refl _
  · simp

theorem addRowId_levels (p : Plan) (name : String) : (p.addRowId name).2.levels = p.levels := by
  rw [addRowId]
  split <;> rfl

theorem addRowId_childLists (p : Plan) (name : String) :
    (p.addRowId name).2.childLists = p.childLists := by
  rw [addRowId]
  split <;> rfl

theorem addRowId_columns (p : Plan) (name : String) :
    (p.addRowId name).2.columns = p.columns := by
  rw [addRowId]
  split <;> rfl

/-- More row numbers do no harm. -/
theorem WellFormed.of_rowIds {p q : Plan} (h : p.WellFormed) (hlevels : q.levels = p.levels)
    (hchildLists : q.childLists = p.childLists) (hcolumns : q.columns = p.columns)
    (hrowIds : p.rowIds.length ≤ q.rowIds.length) : q.WellFormed where
  levels_pos := hlevels ▸ h.levels_pos
  childLists_length := by rw [hlevels, hchildLists, h.childLists_length]
  children_eq i hi := by
    rw [children, childLevels, hchildLists, hlevels]
    exact h.children_eq i (hlevels ▸ hi)
  parent_eq_none_iff := hlevels ▸ h.parent_eq_none_iff
  parent_lt := hlevels ▸ h.parent_lt
  rowId_lt level hlevel := Nat.lt_of_lt_of_le (h.rowId_lt level (hlevels ▸ hlevel)) hrowIds
  witness_lt level hlevel w hw :=
    Nat.lt_of_lt_of_le (h.witness_lt level (hlevels ▸ hlevel) w hw) hrowIds
  column_lt c hc := hlevels ▸ h.column_lt c (hcolumns ▸ hc)

theorem wellFormed_root (rowId table : String) : (root rowId table).WellFormed where
  levels_pos := Nat.one_pos
  childLists_length := rfl
  children_eq i hi := by
    obtain rfl := Nat.lt_one_iff.mp hi
    rfl
  parent_eq_none_iff i level hlevel := by
    obtain ⟨hi, rfl⟩ := List.getElem?_eq_some_iff.mp hlevel
    simp only [root, List.length_singleton, Nat.lt_one_iff] at hi
    subst hi
    simp [root]
  parent_lt i level hlevel j hj := by
    rw [List.mem_singleton.mp (List.mem_of_getElem? hlevel)] at hj
    exact absurd hj (by simp)
  rowId_lt level hlevel := by
    rw [List.mem_singleton.mp hlevel]
    exact Nat.one_pos
  witness_lt level hlevel w hw := by
    rw [List.mem_singleton.mp hlevel] at hw
    exact absurd hw (by simp)
  column_lt c hc := absurd hc (by simp [root])

/-- The levels below a level, after one is added below `parent`. -/
theorem childLevels_addLevel (p : Plan) {level : Level} {parent : Nat}
    (hparent : level.parent? = some parent) (i : Nat) :
    (p.addLevel level).childLevels i =
      p.childLevels i ++ if parent = i then [p.levels.length] else [] := by
  have hold : ∀ j ∈ List.range p.levels.length,
      ((p.levels ++ [level])[j]?.bind Level.parent? == some i) =
        (p.levels[j]?.bind Level.parent? == some i) := by
    intro j hj
    rw [List.getElem?_append_left (List.mem_range.mp hj)]
  rw [childLevels, Plan.addLevel, List.length_append, List.length_singleton, List.range_succ,
    List.filter_append, List.filter_congr hold, ← childLevels]
  congr 1
  by_cases hi : parent = i <;> simp [hparent, hi]

theorem children_addLevel {p : Plan} (hlength : p.childLists.length = p.levels.length)
    {level : Level} {parent : Nat} (hparent : level.parent? = some parent) {i : Nat}
    (hi : i < p.levels.length) :
    (p.addLevel level).children i =
      p.children i ++ if parent = i then [p.levels.length] else [] := by
  have hi' : i < p.childLists.length := hlength ▸ hi
  simp only [children, Plan.addLevel, hparent, addChild]
  rw [List.getElem?_append_left (by rwa [List.length_modify]), List.getElem?_modify,
    List.getElem?_eq_getElem hi']
  by_cases h : parent = i <;> simp [h]

/-- A level that has just been added has no levels below it. -/
theorem children_addLevel_length {p : Plan} (hlength : p.childLists.length = p.levels.length)
    (level : Level) : (p.addLevel level).children p.levels.length = [] := by
  have hchild : (p.addChild level.parent?).length = p.levels.length := by
    cases level.parent? with
    | none => exact hlength
    | some parent => rw [addChild, List.length_modify, hlength]
  rw [children, Plan.addLevel]
  simp only
  rw [← hchild, List.getElem?_concat_length, Option.getD_some]

theorem WellFormed.addLevel {p : Plan} (h : p.WellFormed) {parent rowId : Nat} (single : Bool)
    (target : Target) (label table : String) (hparent : parent < p.levels.length)
    (hrowId : rowId < p.rowIds.length) :
    (p.addLevel ⟨some parent, rowId, single, target, label, table, []⟩).WellFormed := by
  refine ⟨?_, ?_, fun i hi => ?_, fun i level hlevel => ?_, fun i level hlevel j hj => ?_,
    fun level hlevel => ?_, fun level hlevel w hw => ?_, fun c hc => ?_⟩
  · rw [Plan.addLevel, List.length_append]
    exact Nat.add_pos_left h.levels_pos _
  · simp only [Plan.addLevel, addChild, List.length_append, List.length_modify,
      h.childLists_length, List.length_singleton]
  · -- The new level is entered among the children of its parent, and has none itself.
    rw [childLevels_addLevel p rfl]
    rw [Plan.addLevel, List.length_append] at hi
    rcases Nat.lt_succ_iff_lt_or_eq.mp hi with hlt | rfl
    · rw [children_addLevel h.childLists_length rfl hlt, h.children_eq i hlt]
    · rw [children_addLevel_length h.childLists_length, if_neg (Nat.ne_of_lt hparent),
        List.append_nil, eq_comm, List.eq_nil_iff_forall_not_mem]
      exact fun j hj => Nat.lt_asymm (h.lt_of_mem_childLevels hj).1 (h.lt_of_mem_childLevels hj).2
  · rcases getElem?_concat_eq_some_iff.mp hlevel with hold | ⟨rfl, rfl⟩
    · exact h.parent_eq_none_iff i level hold
    · exact ⟨fun hnone => absurd hnone (by simp),
        fun hzero => absurd hzero (Nat.ne_of_gt h.levels_pos)⟩
  · rcases getElem?_concat_eq_some_iff.mp hlevel with hold | ⟨rfl, rfl⟩
    · exact h.parent_lt i level hold j hj
    · rw [← Option.some.inj hj]
      exact hparent
  · rcases List.mem_append.mp hlevel with hold | hnew
    · exact h.rowId_lt level hold
    · rw [List.mem_singleton.mp hnew]
      exact hrowId
  · rcases List.mem_append.mp hlevel with hold | hnew
    · exact h.witness_lt level hold w hw
    · rw [List.mem_singleton.mp hnew] at hw
      exact absurd hw (by simp)
  · rw [Plan.addLevel, List.length_append]
    exact Nat.lt_add_right _ (h.column_lt c hc)

theorem WellFormed.addColumn {p : Plan} (h : p.WellFormed) {c : PlanColumn}
    (hc : c.level < p.levels.length) : (p.addColumn c).WellFormed where
  levels_pos := h.levels_pos
  childLists_length := h.childLists_length
  children_eq := h.children_eq
  parent_eq_none_iff := h.parent_eq_none_iff
  parent_lt := h.parent_lt
  rowId_lt := h.rowId_lt
  witness_lt := h.witness_lt
  column_lt d hd := by
    rcases List.mem_append.mp hd with hold | hnew
    · exact h.column_lt d hold
    · rw [List.mem_singleton.mp hnew]
      exact hc

/-- A witness changes nothing of a level but its witnesses. -/
theorem addWitness_getElem? (p : Plan) (level : Nat) (w : Witness) (i : Nat) {l : Level}
    (h : (p.addWitness level w).levels[i]? = some l) :
    ∃ l', p.levels[i]? = some l' ∧ l.parent? = l'.parent? ∧ l.rowId = l'.rowId ∧
      ∀ x ∈ l.witnesses, x = w ∨ x ∈ l'.witnesses := by
  rw [addWitness, List.getElem?_modify, Option.map_eq_map, Option.map_eq_some_iff] at h
  obtain ⟨l', hl', rfl⟩ := h
  refine ⟨l', hl', ?_⟩
  split
  · rw [Level.addWitness]
    split
    · exact ⟨rfl, rfl, fun _ hx => Or.inr hx⟩
    · refine ⟨rfl, rfl, fun x hx => ?_⟩
      rcases List.mem_append.mp hx with hold | hnew
      · exact Or.inr hold
      · exact Or.inl (List.mem_singleton.mp hnew)
  · exact ⟨rfl, rfl, fun _ hx => Or.inr hx⟩

theorem childLevels_addWitness (p : Plan) (level : Nat) (w : Witness) (i : Nat) :
    (p.addWitness level w).childLevels i = p.childLevels i := by
  have hparent : ∀ l : Level, (l.addWitness w).parent? = l.parent? := by
    intro l
    rw [Level.addWitness]
    split <;> rfl
  rw [childLevels, childLevels, addWitness, List.length_modify]
  refine List.filter_congr fun j _ => ?_
  rw [List.getElem?_modify]
  cases p.levels[j]? with
  | none => rfl
  | some l => by_cases hj : level = j <;> simp [hj, hparent]

theorem WellFormed.addWitness {p : Plan} (h : p.WellFormed) (level : Nat) {w : Witness}
    (hw : w.rowId < p.rowIds.length) : (p.addWitness level w).WellFormed := by
  have hlength : (p.addWitness level w).levels.length = p.levels.length :=
    List.length_modify _ _ _
  refine ⟨hlength ▸ h.levels_pos, hlength ▸ h.childLists_length, fun i hi => ?_,
    fun i l hl => ?_, fun i l hl j hj => ?_, fun l hl => ?_, fun l hl x hx => ?_,
    fun c hc => hlength ▸ h.column_lt c hc⟩
  · rw [childLevels_addWitness]
    exact h.children_eq i (hlength ▸ hi)
  · obtain ⟨l', hl', hparent, -⟩ := addWitness_getElem? p level w i hl
    rw [hparent]
    exact h.parent_eq_none_iff i l' hl'
  · obtain ⟨l', hl', hparent, -⟩ := addWitness_getElem? p level w i hl
    exact h.parent_lt i l' hl' j (hparent ▸ hj)
  · obtain ⟨i, hi⟩ := List.mem_iff_getElem?.mp hl
    obtain ⟨l', hl', -, hrowId, -⟩ := addWitness_getElem? p level w i hi
    rw [hrowId]
    exact h.rowId_lt l' (List.mem_of_getElem? hl')
  · obtain ⟨i, hi⟩ := List.mem_iff_getElem?.mp hl
    obtain ⟨l', hl', -, -, hwitnesses⟩ := addWitness_getElem? p level w i hi
    rcases hwitnesses x hx with rfl | hold
    · exact hw
    · exact h.witness_lt l' (List.mem_of_getElem? hl') x hold

theorem Built.wellFormed {p : Plan} (h : p.Built) : p.WellFormed := by
  induction h with
  | root rowId table => exact wellFormed_root rowId table
  | addRowId name _ ih =>
    exact ih.of_rowIds (addRowId_levels _ _) (addRowId_childLists _ _) (addRowId_columns _ _)
      (rowIds_length_le_addRowId _ _)
  | addLevel single target label table _ hparent hrowId ih =>
    exact ih.addLevel single target label table hparent hrowId
  | addColumn _ hc ih => exact ih.addColumn hc
  | addWitness _ _ hw ih => exact ih.addWitness _ hw

end Plan

end NestedQuery
