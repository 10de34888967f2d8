import NestedQuery.Proofs.Graph.Plan
import NestedQuery.Proofs.Query.Stages
import NestedQuery.Select.Assemble

/-!
# What a draft collects

`Draft.Collects` is the invariant of laying out a plan: the row numbers of the plan are those of
`rowIdTables`, every level's lineage is among these, and so is every table that an output reads
row by row, because the tables outside the lineage become witnesses.

* `ofMapping_collects`: the draft of a mapping keeps the invariant.
* `Collects.mem_rowIdTables_of_mem_rowColumns`: an output reads row by row only from tables whose
  row numbers are selected.
* `Collects.mem_neededTables_iff`: what the draft needs are the primary table, the mapped tables
  that are not aggregated, and what the outputs need.
-/

namespace NestedQuery

/-! ### Names of tables -/

/-- Different numbers make different names. -/
theorem eq_of_append_toString (start : String) {i j : Nat}
    (h : start ++ toString i = start ++ toString j) : i = j := by
  have hdigits : Nat.toDigits 10 i = Nat.toDigits 10 j := by
    have hchars := congrArg String.toList h
    simpa [Nat.toString_eq_ofList_toDigits] using hchars
  rw [← @Nat.ofDigitChars_ten_toDigits i, hdigits, Nat.ofDigitChars_ten_toDigits]

theorem tableAlias_injective {t u : TableId} (h : tableAlias t = tableAlias u) : t = u :=
  eq_of_append_toString "t" h

/-- The name under which the row number of a table is selected. -/
def rowIdNameOf (t : TableId) : String :=
  rowIdName (tableAlias t)

theorem rowIdNameOf_injective {t u : TableId} (h : rowIdNameOf t = rowIdNameOf u) : t = u := by
  rw [rowIdNameOf, rowIdNameOf, rowIdName, rowIdName, String.append_left_inj,
    String.append_left_inj] at h
  exact tableAlias_injective h

namespace Draft

/-! ### The invariant -/

/-- The draft for the outputs `os` over mapped tables `tables` is in order. -/
structure Collects (tables : List MappedTable) (os : List (Output Cell)) (d : Draft) : Prop where
  /-- The row numbers of the plan are those of the tables, in order. -/
  rowIds : d.plan.rowIds = d.rowIdTables.map rowIdNameOf
  /-- There is a level of the primary table. -/
  root : ∃ p ∈ d.places, p.table = 0
  /-- A level belongs to its own lineage. -/
  head : ∀ p ∈ d.places, p.lineage.head? = some p.table
  /-- The row numbers of all tables above a level are selected. -/
  lineage : ∀ p ∈ d.places, ∀ t ∈ p.lineage, t ∈ d.rowIdTables
  /-- A level is one of the primary table or of a mapped table with elements. -/
  mapped : ∀ p ∈ d.places, p.table = 0 ∨ ∃ m ∈ tables, m.aggregated = false ∧ m.table = p.table
  /-- Row numbers are selected for levels and witnesses only. -/
  registered : ∀ t ∈ d.rowIdTables, (∃ p ∈ d.places, p.table = t) ∨ t ∈ d.witnesses
  /-- Witnesses are needed by outputs. -/
  witnesses : ∀ t ∈ d.witnesses, ∃ o ∈ os, t ∈ Term.neededTables o.value
  /-- The values are those of the outputs. -/
  values : d.outputs.map Projected.value = os.map Output.value
  /-- Each output has a column, at the deepest level that encloses it. -/
  columns : List.Forall₂ (fun o c => c.level = (enclosing d.places o.target).1) os d.plan.columns
  /-- The row numbers of all tables that an output reads row by row outside its lineage are
  selected. -/
  witnessed : ∀ o ∈ os, ∀ t ∈ witnessTables (d.lineage (enclosing d.places o.target).1) o.value,
    t ∈ d.rowIdTables

variable {s : Statement} {tables : List MappedTable} {os : List (Output Cell)} {d : Draft}

theorem root_collects (s : Statement) (tables : List MappedTable) :
    Collects tables [] (root s) where
  rowIds := rfl
  root := ⟨_, List.mem_singleton_self _, rfl⟩
  head p hp := by rw [List.mem_singleton.mp hp]; rfl
  lineage p hp t ht := by rwa [List.mem_singleton.mp hp] at ht
  mapped p hp := Or.inl (by rw [List.mem_singleton.mp hp])
  registered t ht := Or.inl ⟨_, List.mem_singleton_self _, (List.mem_singleton.mp ht).symm⟩
  witnesses t ht := absurd ht List.not_mem_nil
  values := rfl
  columns := .nil
  witnessed o ho := absurd ho List.not_mem_nil

/-! ### Row numbers -/

/-- Asking for a row number adds its table, if it is new. -/
theorem rowId_rowIdTables (hd : d.plan.rowIds = d.rowIdTables.map rowIdNameOf) (t : TableId) :
    (d.rowId t).2.plan.rowIds = (d.rowId t).2.rowIdTables.map rowIdNameOf ∧
      ∀ u, u ∈ (d.rowId t).2.rowIdTables ↔ u ∈ d.rowIdTables ∨ u = t := by
  rw [rowId, Plan.addRowId]
  cases hfind : d.plan.rowIds.idxOf? (rowIdName (tableAlias t)) with
  | some i =>
    obtain ⟨hi, hname, -⟩ := List.idxOf?_eq_some_iff.mp hfind
    have hlt : i < d.rowIdTables.length := by rwa [hd, List.length_map] at hi
    -- Tables have different names, so a name that is there is the name of this table.
    have hmem : t ∈ d.rowIdTables := by
      simp only [hd, List.getElem_map] at hname
      rw [← rowIdNameOf_injective hname]
      exact List.getElem_mem hlt
    simp only
    rw [if_neg (Nat.ne_of_lt hlt)]
    refine ⟨hd, fun u => ⟨Or.inl, fun hu => ?_⟩⟩
    rcases hu with hu | rfl
    · exact hu
    · exact hmem
  | none =>
    have hlength : d.plan.rowIds.length = d.rowIdTables.length := by rw [hd, List.length_map]
    simp only
    rw [if_pos hlength, hd, List.map_append]
    refine ⟨rfl, fun u => ?_⟩
    rw [List.mem_append, List.mem_singleton]

theorem Collects.lineage_subset (h : Collects tables os d) (level : Nat) {t : TableId}
    (ht : t ∈ d.lineage level) : t ∈ d.rowIdTables := by
  rw [Draft.lineage] at ht
  cases hp : d.places[level]? with
  | none =>
    rw [hp] at ht
    exact absurd ht List.not_mem_nil
  | some p =>
    rw [hp] at ht
    exact h.lineage p (List.mem_of_getElem? hp) t ht

/-! ### Levels -/

/-- A level for a mapped table with elements keeps the invariant. -/
theorem Collects.addTable (h : Collects tables [] d) {m : MappedTable} (hm : m ∈ tables)
    (hrows : m.aggregated = false) :
    Collects tables [] (d.addTable s m) ∧ (∃ p ∈ (d.addTable s m).places, p.table = m.table) ∧
      ∀ p ∈ d.places, p ∈ (d.addTable s m).places := by
  rw [Draft.addTable]
  simp only
  generalize hparent : (enclosing d.places m.target).1 = parent
  split
  -- The level is there, or the enclosing level is one of the same table.
  · rename_i hskip
    refine ⟨h, ?_, fun p hp => hp⟩
    rw [Bool.or_eq_true, List.any_eq_true] at hskip
    rcases hskip with ⟨p, hp, hknown⟩ | hhead
    · rw [Bool.and_eq_true, beq_iff_eq] at hknown
      exact ⟨p, hp, hknown.1⟩
    · rw [beq_iff_eq, Draft.lineage] at hhead
      cases hp : d.places[parent]? with
      | none =>
        rw [hp] at hhead
        exact absurd hhead (by simp)
      | some p =>
        have hmem := List.mem_of_getElem? hp
        rw [hp] at hhead
        exact ⟨p, hmem, Option.some.inj ((h.head p hmem).symm.trans hhead)⟩
  -- Otherwise one level comes at the end, and so does its place.
  · obtain ⟨hrowIds, hmem⟩ := rowId_rowIdTables h.rowIds m.table
    refine ⟨⟨hrowIds, ?_, ?_, ?_, ?_, ?_, ?_, h.values, ?_, ?_⟩, ?_, ?_⟩
    · obtain ⟨p, hp, hzero⟩ := h.root
      exact ⟨p, List.mem_append_left _ hp, hzero⟩
    · intro p hp
      rcases List.mem_append.mp hp with hp | hp
      · exact h.head p hp
      · rw [List.mem_singleton.mp hp]
        rfl
    · intro p hp t ht
      rcases List.mem_append.mp hp with hp | hp
      · exact (hmem t).mpr (Or.inl (h.lineage p hp t ht))
      · rw [List.mem_singleton.mp hp] at ht
        rcases List.mem_cons.mp ht with rfl | ht
        · exact (hmem _).mpr (Or.inr rfl)
        · exact (hmem t).mpr (Or.inl (h.lineage_subset parent ht))
    · intro p hp
      rcases List.mem_append.mp hp with hp | hp
      · exact h.mapped p hp
      · rw [List.mem_singleton.mp hp]
        exact Or.inr ⟨m, hm, hrows, rfl⟩
    · intro t ht
      rcases (hmem t).mp ht with ht | rfl
      · rcases h.registered t ht with ⟨p, hp, htable⟩ | hwitness
        · exact Or.inl ⟨p, List.mem_append_left _ hp, htable⟩
        · exact Or.inr hwitness
      · exact Or.inl ⟨_, List.mem_append_right _ (List.mem_singleton_self _), rfl⟩
    · exact h.witnesses
    · rw [List.forall₂_nil_left_iff]
      exact (Plan.addRowId_columns _ _).trans (List.forall₂_nil_left_iff.mp h.columns)
    · exact fun o ho => absurd ho List.not_mem_nil
    · exact ⟨_, List.mem_append_right _ (List.mem_singleton_self _), rfl⟩
    · exact fun p hp => List.mem_append_left _ hp

theorem Collects.foldl_addTable {ms : List MappedTable} (h : Collects tables [] d)
    (hms : ∀ m ∈ ms, m ∈ tables ∧ m.aggregated = false) :
    Collects tables [] (ms.foldl (Draft.addTable s) d) ∧
      (∀ m ∈ ms, ∃ p ∈ (ms.foldl (Draft.addTable s) d).places, p.table = m.table) ∧
      ∀ p ∈ d.places, p ∈ (ms.foldl (Draft.addTable s) d).places := by
  induction ms generalizing d with
  | nil => exact ⟨h, fun m hm => absurd hm List.not_mem_nil, fun p hp => hp⟩
  | cons m ms ih =>
    obtain ⟨hm, hrows⟩ := hms m (List.mem_cons_self ..)
    obtain ⟨hadd, ⟨p, hp, htable⟩, hold⟩ := h.addTable (s := s) hm hrows
    obtain ⟨hfold, hplaced, hkept⟩ := ih hadd fun m' hm' => hms m' (List.mem_cons_of_mem _ hm')
    refine ⟨hfold, fun m' hm' => ?_, fun p hp => hkept p (hold p hp)⟩
    rcases List.mem_cons.mp hm' with rfl | hm'
    · exact ⟨p, hkept p hp, htable⟩
    · exact hplaced m' hm'

/-- Every mapped table with elements has a level. -/
theorem ofTables_collects (s : Statement) (tables : List MappedTable) :
    Collects tables [] (ofTables s tables) ∧
      ∀ m ∈ tables, m.aggregated = false → ∃ p ∈ (ofTables s tables).places, p.table = m.table := by
  have hms : ∀ m ∈ (tables.filter fun m => !m.aggregated).mergeSort
      (fun m n => m.target.length ≤ n.target.length), m ∈ tables ∧ m.aggregated = false := by
    intro m hm
    rw [List.mem_mergeSort, List.mem_filter, Bool.not_eq_true'] at hm
    exact hm
  obtain ⟨hcollects, hplaced, -⟩ := (root_collects s tables).foldl_addTable (s := s) hms
  refine ⟨hcollects, fun m hm hrows => hplaced m ?_⟩
  rw [List.mem_mergeSort, List.mem_filter, Bool.not_eq_true']
  exact ⟨hm, hrows⟩

/-! ### Outputs -/

/-- Witnesses add their row numbers and nothing else. -/
theorem foldl_addWitness (hd : d.plan.rowIds = d.rowIdTables.map rowIdNameOf) (level : Nat)
    (ts : List TableId) {d' : Draft} (h : ts.foldl (addWitness s level) d = d') :
    d'.plan.rowIds = d'.rowIdTables.map rowIdNameOf ∧
      (∀ u, u ∈ d'.rowIdTables ↔ u ∈ d.rowIdTables ∨ u ∈ ts) ∧ d'.places = d.places ∧
      d'.outputs = d.outputs ∧ d'.plan.columns = d.plan.columns ∧
      d'.witnesses = d.witnesses ++ ts := by
  induction ts generalizing d with
  | nil =>
    rw [← h]
    refine ⟨hd, fun u => ?_, rfl, rfl, rfl, (List.append_nil _).symm⟩
    exact ⟨Or.inl, fun hu => hu.resolve_right List.not_mem_nil⟩
  | cons t ts ih =>
    obtain ⟨hrowIds, hmem⟩ := rowId_rowIdTables hd t
    -- A row number is no column.
    have hcolumns : (addWitness s level d t).plan.columns = d.plan.columns :=
      Plan.addRowId_columns _ _
    obtain ⟨hrowIds', hmem', hplaces, houtputs, hcolumns', hwitnesses⟩ :=
      ih (d := addWitness s level d t) hrowIds h
    refine ⟨hrowIds', fun u => ?_, hplaces, houtputs, hcolumns'.trans hcolumns, ?_⟩
    · rw [hmem' u, List.mem_cons, ← or_assoc]
      exact or_congr_left (hmem u)
    · rw [hwitnesses, List.append_cons]
      rfl

theorem mem_witnessTables {lineage : List TableId} {value : Term} {t : TableId} :
    t ∈ witnessTables lineage value ↔
      (∃ x ∈ value.visit, x.2 = false ∧ x.1.rowId?.map ColumnRef.table = some t) ∧
        t ∉ lineage := by
  rw [witnessTables, List.mem_eraseDups, List.mem_filter, List.mem_filterMap,
    Bool.not_eq_true', ← Bool.not_eq_true, List.contains_iff_mem]
  refine and_congr_left fun _ => ⟨?_, ?_⟩
  · rintro ⟨⟨leaf, beneath⟩, hx, ht⟩
    cases beneath with
    | false => exact ⟨_, hx, rfl, ht⟩
    | true => exact absurd ht (by simp)
  · rintro ⟨⟨leaf, beneath⟩, hx, rfl, ht⟩
    exact ⟨_, hx, ht⟩

theorem mem_neededTables_of_mem_visit {value : Term} {x : Cell × Bool} (hx : x ∈ value.visit)
    {t : TableId} (ht : t ∈ x.1.tables) : t ∈ Term.neededTables value :=
  List.mem_flatMap.mpr ⟨x.1, List.mem_map.mpr ⟨x, hx, rfl⟩, ht⟩

theorem witnessTables_subset (lineage : List TableId) (value : Term) :
    witnessTables lineage value ⊆ Term.neededTables value := by
  intro t ht
  obtain ⟨⟨x, hx, -, ht⟩, -⟩ := mem_witnessTables.mp ht
  exact mem_neededTables_of_mem_visit hx (Cell.rowId?_table_mem_tables ht)

/-- One more output keeps the invariant. -/
theorem Collects.addOutput (h : Collects tables os d) (o : Output Cell) :
    Collects tables (os ++ [o]) (d.addOutput s o) ∧ (d.addOutput s o).places = d.places := by
  rw [Draft.addOutput]
  simp only
  generalize hlevel : (enclosing d.places o.target).1 = level
  generalize hd' : (witnessTables (d.lineage level) o.value).foldl (addWitness s level) d = d'
  obtain ⟨hrowIds, hmem, hplaces, houtputs, hcolumns, hwitnesses⟩ :=
    foldl_addWitness h.rowIds level _ hd'
  -- Witnesses leave the places alone, so levels and lineages are the same before and after.
  have hlineage : ∀ i, Draft.lineage d' i = d.lineage i := fun i => by
    rw [Draft.lineage, hplaces, Draft.lineage]
  refine ⟨⟨hrowIds, ?_, ?_, ?_, ?_, ?_, ?_, ?_, ?_, ?_⟩, hplaces⟩
  · exact hplaces ▸ h.root
  · exact hplaces ▸ h.head
  · exact fun p hp t ht => (hmem t).mpr (Or.inl (h.lineage p (hplaces ▸ hp) t ht))
  · exact fun p hp => h.mapped p (hplaces ▸ hp)
  · intro t ht
    rcases (hmem t).mp ht with ht | ht
    · rcases h.registered t ht with ⟨p, hp, htable⟩ | hwitness
      · exact Or.inl ⟨p, hplaces ▸ hp, htable⟩
      · exact Or.inr (hwitnesses ▸ List.mem_append_left _ hwitness)
    · exact Or.inr (hwitnesses ▸ List.mem_append_right _ ht)
  · intro t ht
    rcases List.mem_append.mp (hwitnesses ▸ ht) with hold | hnew
    · obtain ⟨o', ho', hneeded⟩ := h.witnesses t hold
      exact ⟨o', List.mem_append_left _ ho', hneeded⟩
    · exact ⟨o, List.mem_append_right _ (List.mem_singleton_self _),
        witnessTables_subset _ _ hnew⟩
  · rw [List.map_append, List.map_append, houtputs, h.values]
    rfl
  · show List.Forall₂ (fun (o : Output Cell) c => c.level = (enclosing d'.places o.target).1) _
      (d'.plan.columns ++ _)
    rw [hplaces, hcolumns]
    exact List.rel_append h.columns (.cons hlevel.symm .nil)
  · intro o' ho' t ht
    show t ∈ d'.rowIdTables
    change t ∈ witnessTables (d'.lineage (enclosing d'.places o'.target).1) o'.value at ht
    rw [hplaces, hlineage] at ht
    rcases List.mem_append.mp ho' with hold | hnew
    · exact (hmem t).mpr (Or.inl (h.witnessed o' hold t ht))
    · rw [List.mem_singleton.mp hnew, hlevel] at ht
      exact (hmem t).mpr (Or.inr ht)

theorem Collects.foldl_addOutput (h : Collects tables os d) (os' : List (Output Cell)) :
    Collects tables (os ++ os') (os'.foldl (Draft.addOutput s) d) ∧
      (os'.foldl (Draft.addOutput s) d).places = d.places := by
  induction os' generalizing os d with
  | nil =>
    rw [List.append_nil]
    exact ⟨h, rfl⟩
  | cons o os' ih =>
    obtain ⟨hadd, hplaces⟩ := h.addOutput (s := s) o
    obtain ⟨hfold, hplaces'⟩ := ih hadd
    rw [List.append_cons]
    exact ⟨hfold, hplaces'.trans hplaces⟩

/-- **The draft of a mapping is in order**, and every mapped table with elements has a level. -/
theorem ofMapping_collects (s : Statement) (tables : List MappedTable) (os : List (Output Cell)) :
    Collects tables os (ofMapping s tables os) ∧
      ∀ m ∈ tables, m.aggregated = false →
        ∃ p ∈ (ofMapping s tables os).places, p.table = m.table := by
  obtain ⟨htables, hplaced⟩ := ofTables_collects s tables
  obtain ⟨hcollects, hplaces⟩ := htables.foldl_addOutput (s := s) os
  refine ⟨hcollects, fun m hm hrows => ?_⟩
  rw [ofMapping, hplaces]
  exact hplaced m hm hrows

/-! ### What follows -/

/-- The values of the draft are those of the outputs. -/
theorem exists_of_mem_ofMapping {p : Projected} (hp : p ∈ (ofMapping s tables os).outputs) :
    ∃ o ∈ os, o.value = p.value := by
  have hmem : p.value ∈ os.map Output.value := by
    rw [← (ofMapping_collects s tables os).1.values]
    exact List.mem_map_of_mem hp
  exact List.mem_map.mp hmem

theorem mem_rowColumns {t : Term} {c : ColumnRef} :
    c ∈ Assembler.rowColumns t ↔ ∃ x ∈ t.visit, x.2 = false ∧ x.1.column? = some c := by
  rw [Assembler.rowColumns, List.mem_filterMap]
  constructor
  · rintro ⟨⟨leaf, beneath⟩, hx, hc⟩
    cases beneath with
    | false => exact ⟨_, hx, rfl, hc⟩
    | true => exact absurd hc (by simp)
  · rintro ⟨⟨leaf, beneath⟩, hx, rfl, hc⟩
    exact ⟨_, hx, hc⟩

/-- **An output reads row by row only from tables whose row numbers are selected.** -/
theorem Collects.mem_rowIdTables_of_mem_rowColumns (h : Collects tables os d) {o : Output Cell}
    (ho : o ∈ os) {ids : List TableId} (hof : Term.IsOf ids o.value) {c : ColumnRef}
    (hc : c ∈ Assembler.rowColumns o.value) : c.table ∈ d.rowIdTables := by
  obtain ⟨⟨leaf, beneath⟩, hx, rfl, hcolumn⟩ := mem_rowColumns.mp hc
  by_cases hlineage : c.table ∈ d.lineage (enclosing d.places o.target).1
  · exact h.lineage_subset _ hlineage
  · -- The row number that the leaf belongs to is that of its table, which becomes a witness.
    refine h.witnessed o ho _ (mem_witnessTables.mpr ⟨⟨_, hx, rfl, ?_⟩, hlineage⟩)
    rw [(hof _ hx).rowId?_eq hcolumn]
    rfl

/-- The tables that the draft needs are the primary table, the mapped tables with elements, and
those that the outputs need. -/
theorem Collects.mem_neededTables_iff (h : Collects tables os d)
    (hplaced : ∀ m ∈ tables, m.aggregated = false → ∃ p ∈ d.places, p.table = m.table)
    {t : TableId} :
    t ∈ d.neededTables ↔ t = 0 ∨ (∃ m ∈ tables, m.aggregated = false ∧ m.table = t) ∨
      ∃ o ∈ os, t ∈ Term.neededTables o.value := by
  have houtputs : (d.outputs.flatMap fun o => Term.neededTables o.value) =
      os.flatMap fun o => Term.neededTables o.value := by
    have hvalues := congrArg (List.flatMap Term.neededTables) h.values
    rwa [List.flatMap_map, List.flatMap_map] at hvalues
  rw [neededTables, houtputs, List.mem_append, List.mem_append, List.mem_map, List.mem_flatMap]
  constructor
  · rintro ((⟨p, hp, rfl⟩ | hwitness) | houtput)
    · rcases h.mapped p hp with hzero | ⟨m, hm, hrows, htable⟩
      · exact Or.inl hzero
      · exact Or.inr (Or.inl ⟨m, hm, hrows, htable⟩)
    · exact Or.inr (Or.inr (h.witnesses t hwitness))
    · exact Or.inr (Or.inr houtput)
  · rintro (rfl | ⟨m, hm, hrows, rfl⟩ | houtput)
    · exact Or.inl (Or.inl h.root)
    · exact Or.inl (Or.inl (hplaced m hm hrows))
    · exact Or.inr houtput

end Draft

end NestedQuery
