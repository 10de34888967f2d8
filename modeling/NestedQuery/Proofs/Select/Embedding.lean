import NestedQuery.Proofs.Graph.Grouping
import NestedQuery.Proofs.Mapping.Embedding
import NestedQuery.Proofs.Select.GroupKeys

/-!
# Plans of larger statements

The outputs and mapped tables of a mapping, moved to a larger statement, have the same plan there,
except that the row numbers are those of the moved tables (`Draft.ofMapping_embed`). So have the
group keys and the markers.
-/

namespace NestedQuery

/-! ### Lists under injective maps -/

section

variable {α β : Type} [BEq α] [LawfulBEq α] [BEq β] [LawfulBEq β]

theorem beq_of_injective {g : α → β} (hg : Function.Injective g) (a b : α) :
    (g a == g b) = (a == b) := by
  rw [Bool.eq_iff_iff, beq_iff_eq, beq_iff_eq, hg.eq_iff]

theorem idxOf?_map {g : α → β} (hg : Function.Injective g) (l : List α) (a : α) :
    (l.map g).idxOf? (g a) = l.idxOf? a := by
  rw [List.idxOf?, List.findIdx?_map, List.idxOf?]
  exact congrArg (List.findIdx? · l) (funext fun b => beq_of_injective hg b a)

theorem contains_map {g : α → β} (hg : Function.Injective g) (l : List α) (a : α) :
    (l.map g).contains (g a) = l.contains a := by
  rw [Bool.eq_iff_iff, List.contains_iff_mem, List.contains_iff_mem, List.mem_map_of_injective hg]

theorem eraseDups_map [DecidableEq α] [DecidableEq β] {g : α → β} {l : List α}
    (hg : ∀ a ∈ l, ∀ b ∈ l, g a = g b → a = b) : (l.map g).eraseDups = l.eraseDups.map g := by
  induction l using List.reverseRecOn with
  | nil => rfl
  | append_singleton l a ih =>
    have hl : ∀ b ∈ l, ∀ c ∈ l, g b = g c → b = c := fun b hb c hc =>
      hg b (List.mem_append_left _ hb) c (List.mem_append_left _ hc)
    have hmem : g a ∈ l.map g ↔ a ∈ l := by
      refine ⟨fun h => ?_, List.mem_map_of_mem⟩
      obtain ⟨b, hb, hba⟩ := List.mem_map.mp h
      exact hg b (List.mem_append_left _ hb) a
        (List.mem_append_right _ (List.mem_singleton_self a)) hba ▸ hb
    rw [List.map_append, List.map_singleton, eraseDups_concat, eraseDups_concat, ih hl]
    by_cases ha : a ∈ l
    · rw [if_pos ha, if_pos (hmem.mpr ha)]
    · rw [if_neg ha, if_neg (hmem.not.mpr ha), List.map_append, List.map_singleton]

end

/-! ### Terms -/

namespace Term

variable (f : Embedding)

theorem visit_embed (t : Term) :
    (t.embed f).visit = t.visit.map fun x => (x.1.embed f, x.2) :=
  Accumulator.visitFrom_map _ false t

theorem tables_embed (a : Cell) : (a.embed f).tables = a.tables.map f.table := by
  cases a <;> rfl

theorem neededTables_embed (t : Term) :
    Term.neededTables (t.embed f) = (Term.neededTables t).map f.table := by
  rw [neededTables, Term.embed, Accumulator.leaves_map, List.flatMap_map, neededTables,
    List.map_flatMap]
  exact List.flatMap_congr fun a _ => tables_embed f a

end Term

/-! ### Drafts -/

/-- The place in the larger statement. -/
def Place.embed (f : Embedding) (p : Place) : Place :=
  ⟨f.table p.table, p.target, p.lineage.map f.table⟩

/-- The plan with the row numbers of these tables. -/
def Plan.withRowIds (p : Plan) (tables : List TableId) : Plan :=
  { p with rowIds := tables.map rowIdNameOf }

namespace Draft

/-- The draft in the larger statement. -/
def embed (f : Embedding) (d : Draft) : Draft where
  plan := d.plan.withRowIds (d.rowIdTables.map f.table)
  rowIdTables := d.rowIdTables.map f.table
  places := d.places.map (Place.embed f)
  outputs := d.outputs.map fun o => { o with value := Term.embed f o.value }
  witnesses := d.witnesses.map f.table

variable {f : Embedding} {hidden : String} {s s' : Statement} {d : Draft}

theorem enclosing_embed (f : Embedding) (places : List Place) (t : Target) :
    enclosing (places.map (Place.embed f)) t = enclosing places t := by
  rw [enclosing, List.zipIdx_map, List.filterMap_map]
  rfl

theorem lineage_embed (f : Embedding) (d : Draft) (level : Nat) :
    (d.embed f).lineage level = (d.lineage level).map f.table := by
  rw [lineage, embed, List.getElem?_map, lineage]
  cases d.places[level]? <;> rfl

theorem root_embed (hs : s.Extends f hidden s') : root s' = (root s).embed f := by
  show Draft.mk _ _ _ _ _ = ⟨⟨_, _, _, [rowIdNameOf (f.table 0)]⟩, [f.table 0],
    [⟨f.table 0, [], [f.table 0]⟩], _, _⟩
  rw [f.table_zero, hs.primary]
  rfl

/-- A row number is asked for in both. -/
theorem rowId_embed (hd : d.plan.rowIds = d.rowIdTables.map rowIdNameOf) (t : TableId) :
    (d.embed f).rowId (f.table t) = ((d.rowId t).1, (d.rowId t).2.embed f) := by
  have hname : Function.Injective rowIdNameOf := fun _ _ => rowIdNameOf_injective
  -- Row numbers are named after their tables, so looking for a name is looking for its table.
  have hfind : d.plan.rowIds.idxOf? (rowIdNameOf t) = d.rowIdTables.idxOf? t := by
    rw [hd, idxOf?_map hname]
  have hfind' : (d.embed f).plan.rowIds.idxOf? (rowIdNameOf (f.table t)) =
      d.rowIdTables.idxOf? t := by
    show ((d.rowIdTables.map f.table).map rowIdNameOf).idxOf? _ = _
    rw [idxOf?_map hname, idxOf?_map f.strictMono.injective]
  have hlength : d.plan.rowIds.length = d.rowIdTables.length := by rw [hd, List.length_map]
  have hlength' : (d.embed f).plan.rowIds.length = (d.embed f).rowIdTables.length :=
    List.length_map _
  have htables : (d.embed f).rowIdTables.length = d.rowIdTables.length := List.length_map _
  unfold rowId Plan.addRowId
  rw [show rowIdName (tableAlias t) = rowIdNameOf t from rfl,
    show rowIdName (tableAlias (f.table t)) = rowIdNameOf (f.table t) from rfl, hfind, hfind']
  cases hi : d.rowIdTables.idxOf? t with
  | some i =>
    obtain ⟨hlt, -⟩ := List.idxOf?_eq_some_iff.mp hi
    dsimp only
    rw [if_neg (Nat.ne_of_lt hlt), if_neg (htables ▸ Nat.ne_of_lt hlt)]
  | none =>
    dsimp only
    rw [if_pos hlength, if_pos hlength', hlength', hlength, htables]
    simp only [embed, Plan.withRowIds, List.map_append, List.map_cons, List.map_nil]

theorem tableName_embed (hs : s.Extends f hidden s') (t : TableId) :
    s'.tableName (f.table t) = s.tableName t := by
  rw [Statement.tableName, hs.source, Statement.tableName]

theorem addTable_embed (hs : s.Extends f hidden s')
    (hd : d.plan.rowIds = d.rowIdTables.map rowIdNameOf) (m : MappedTable) :
    addTable s' (d.embed f) (m.embed f) = (addTable s d m).embed f := by
  have hinj := f.strictMono.injective
  have hknown : ((d.embed f).places.any fun p => p.table == f.table m.table && p.target == m.target)
      = d.places.any fun p => p.table == m.table && p.target == m.target := by
    rw [embed, List.any_map]
    refine congrArg (List.any d.places) (funext fun p => ?_)
    exact congrArg (· && _) (beq_of_injective hinj p.table m.table)
  have hhead : ∀ lineage : List TableId, ((lineage.map f.table).head? == some (f.table m.table)) =
      (lineage.head? == some m.table) := fun lineage => by
    cases lineage with
    | nil => rfl
    | cons t ts => exact beq_of_injective hinj t m.table
  have henclosing : enclosing (d.embed f).places m.target = enclosing d.places m.target :=
    enclosing_embed f d.places m.target
  unfold addTable
  dsimp only
  -- Both add a level or neither does, and the levels differ in the numbers of tables only.
  refine (if_congr ?_ rfl ?_).trans (apply_ite (embed f) _ _ _).symm
  · dsimp only [MappedTable.embed]
    rw [henclosing, lineage_embed, hhead, hknown]
  · dsimp only [MappedTable.embed]
    rw [henclosing, lineage_embed, rowId_embed hd, tableName_embed hs]
    dsimp only [embed]
    rw [List.map_append]
    rfl

theorem addTable_rowIds (hd : d.plan.rowIds = d.rowIdTables.map rowIdNameOf) (m : MappedTable) :
    (addTable s d m).plan.rowIds = (addTable s d m).rowIdTables.map rowIdNameOf := by
  unfold addTable
  dsimp only
  split
  · exact hd
  · exact (rowId_rowIdTables hd m.table).1

theorem foldl_addTable_embed (hs : s.Extends f hidden s')
    (hd : d.plan.rowIds = d.rowIdTables.map rowIdNameOf) (ms : List MappedTable) :
    (ms.map (MappedTable.embed f)).foldl (addTable s') (d.embed f) =
      (ms.foldl (addTable s) d).embed f := by
  induction ms generalizing d with
  | nil => rfl
  | cons m ms ih =>
    rw [List.map_cons, List.foldl_cons, List.foldl_cons, addTable_embed hs hd]
    exact ih (addTable_rowIds hd m)

theorem ofTables_embed (hs : s.Extends f hidden s') (tables : List MappedTable) :
    ofTables s' (tables.map (MappedTable.embed f)) = (ofTables s tables).embed f := by
  have hsort : ((tables.filter fun m => !m.aggregated).mergeSort fun m n =>
        m.target.length ≤ n.target.length).map (MappedTable.embed f) =
      ((tables.filter fun m => !m.aggregated).map (MappedTable.embed f)).mergeSort fun m n =>
        m.target.length ≤ n.target.length := List.map_mergeSort fun _ _ _ _ => rfl
  unfold ofTables
  rw [List.filter_map, root_embed hs]
  dsimp only [Function.comp, MappedTable.embed]
  rw [← foldl_addTable_embed hs rfl, hsort]
  rfl

theorem addWitness_embed (hs : s.Extends f hidden s')
    (hd : d.plan.rowIds = d.rowIdTables.map rowIdNameOf) (level : Nat) (t : TableId) :
    addWitness s' level (d.embed f) (f.table t) = (addWitness s level d t).embed f := by
  unfold addWitness
  dsimp only
  rw [rowId_embed hd, tableName_embed hs]
  dsimp only [embed]
  rw [List.map_append]
  rfl

theorem foldl_addWitness_embed (hs : s.Extends f hidden s')
    (hd : d.plan.rowIds = d.rowIdTables.map rowIdNameOf) (level : Nat) (ts : List TableId) :
    (ts.map f.table).foldl (addWitness s' level) (d.embed f) =
      (ts.foldl (addWitness s level) d).embed f := by
  induction ts generalizing d with
  | nil => rfl
  | cons t ts ih =>
    rw [List.map_cons, List.foldl_cons, List.foldl_cons, addWitness_embed hs hd]
    exact ih (rowId_rowIdTables hd t).1

theorem witnessTables_embed (f : Embedding) (lineage : List TableId) (t : Term) :
    witnessTables (lineage.map f.table) (t.embed f) = (witnessTables lineage t).map f.table := by
  have hread : ((t.embed f).visit.filterMap fun x =>
        if x.2 then none else x.1.rowId?.map ColumnRef.table) =
      (t.visit.filterMap fun x => if x.2 then none else x.1.rowId?.map ColumnRef.table).map
        f.table := by
    rw [Term.visit_embed, List.filterMap_map, List.map_filterMap]
    refine List.filterMap_congr fun x _ => ?_
    obtain ⟨a, beneath⟩ := x
    cases beneath <;> cases a <;> rfl
  show (((t.embed f).visit.filterMap fun x =>
    if x.2 then none else x.1.rowId?.map ColumnRef.table).filter _).eraseDups = _
  rw [hread, List.filter_map, eraseDups_map fun _ _ _ _ h => f.table_inj.mp h]
  refine congrArg (fun l => List.map f.table (List.eraseDups l)) (List.filter_congr fun u _ => ?_)
  exact congrArg (!·) (contains_map f.strictMono.injective lineage u)

theorem addOutput_embed (hs : s.Extends f hidden s')
    (hd : d.plan.rowIds = d.rowIdTables.map rowIdNameOf) (o : Output Cell) :
    addOutput s' (d.embed f) (o.map (Cell.embed f)) = (addOutput s d o).embed f := by
  have henclosing : enclosing (d.embed f).places o.target = enclosing d.places o.target :=
    enclosing_embed f d.places o.target
  have hwitnesses := foldl_addWitness_embed hs hd (enclosing d.places o.target).1
    (witnessTables (d.lineage (enclosing d.places o.target).1) o.value)
  rw [← witnessTables_embed] at hwitnesses
  unfold addOutput
  dsimp only [Output.map]
  rw [henclosing, lineage_embed]
  rw [show Accumulator.map (Cell.embed f) o.value = Term.embed f o.value from rfl, hwitnesses]
  dsimp only [embed]
  rw [List.map_append, List.map_map]
  rfl

theorem addOutput_rowIds (hd : d.plan.rowIds = d.rowIdTables.map rowIdNameOf) (o : Output Cell) :
    (addOutput s d o).plan.rowIds = (addOutput s d o).rowIdTables.map rowIdNameOf :=
  (foldl_addWitness hd _ _ rfl).1

/-- **The draft in the larger statement** has the same levels, columns and witnesses. -/
theorem ofMapping_embed (hs : s.Extends f hidden s') (tables : List MappedTable)
    (outputs : List (Output Cell)) :
    ofMapping s' (tables.map (MappedTable.embed f)) (outputs.map (Output.map (Cell.embed f))) =
      (ofMapping s tables outputs).embed f := by
  have hfold : ∀ d : Draft, d.plan.rowIds = d.rowIdTables.map rowIdNameOf →
      (outputs.map (Output.map (Cell.embed f))).foldl (addOutput s') (d.embed f) =
        (outputs.foldl (addOutput s) d).embed f := by
    induction outputs with
    | nil => exact fun _ _ => rfl
    | cons o os ih =>
      intro d hd
      rw [List.map_cons, List.foldl_cons, List.foldl_cons, addOutput_embed hs hd]
      exact ih _ (addOutput_rowIds hd o)
  unfold ofMapping
  rw [ofTables_embed hs]
  exact hfold _ (ofTables_collects s tables).1.rowIds

theorem neededTables_embed (f : Embedding) (d : Draft) :
    (d.embed f).neededTables = d.neededTables.map f.table := by
  unfold neededTables embed
  simp only [List.map_append, List.map_map, List.flatMap_map, List.map_flatMap,
    Term.neededTables_embed]
  rfl

end Draft

end NestedQuery
