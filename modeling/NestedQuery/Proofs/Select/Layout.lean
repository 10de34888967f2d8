import NestedQuery.Proofs.Graph.Indexing
import NestedQuery.Proofs.Select.Sources
import NestedQuery.Proofs.Select.Witnesses

/-!
# The layout of a plan

A draft keeps the place of each level beside its plan. `Draft.IsPlaced` is the invariant that both
agree: each level stands at its place (`Draft.Stands`), places come shallowest first, and so the
last place that encloses an output is the longest one (`enclosing_longest`), where the output's
column lands (`Draft.Lands`).

An assembled plan is well formed and laid out in this way, and a materializer over it looks nothing
up out of range (`layout_of_assemble`).
-/

namespace NestedQuery

/-! ### The longest enclosing place -/

/-- The last place decides if it encloses the target. -/
theorem enclosing_concat (places : List Place) (p : Place) (t : Target) :
    enclosing (places ++ [p]) t =
      match Target.below? p.target t with
      | some rest => (places.length, rest)
      | none => enclosing places t := by
  rw [enclosing, enclosing, List.zipIdx_append, List.filterMap_append]
  cases hp : Target.below? p.target t with
  | none => simp [hp]
  | some rest => simp [hp]

/-- **An output is put at the longest place that encloses it**, with the rest of its target: places
come shallowest first, so the last one is the longest. -/
theorem enclosing_longest {places : List Place}
    (hsorted : places.Pairwise fun p q => p.target.length ≤ q.target.length)
    (hroot : ∃ p ∈ places, p.target = []) (t : Target) :
    ∃ place, places[(enclosing places t).1]? = some place ∧
      t = place.target ++ (enclosing places t).2 ∧
      ∀ other ∈ places, other.target <+: t → other.target.length ≤ place.target.length := by
  induction places using List.reverseRecOn with
  | nil =>
    obtain ⟨p, hp, -⟩ := hroot
    exact absurd hp List.not_mem_nil
  | append_singleton places p ih =>
    obtain ⟨hplaces, -, hlast⟩ := List.pairwise_append.mp hsorted
    rw [enclosing_concat]
    cases hp : Target.below? p.target t with
    | some rest =>
      -- The last place encloses the target, and no other is longer.
      refine ⟨p, List.getElem?_concat_length, (Target.below?_eq_some_iff _ _ _).mp hp, ?_⟩
      intro other hother _
      rcases List.mem_append.mp hother with hold | hnew
      · exact hlast other hold p (List.mem_singleton_self p)
      · rw [List.mem_singleton.mp hnew]
    | none =>
      -- The last place does not enclose it, so the places before decide.
      have hnot : ¬ p.target <+: t := by
        rintro ⟨rest, hrest⟩
        rw [(Target.below?_eq_some_iff _ _ rest).mpr hrest.symm] at hp
        cases hp
      have hroot' : ∃ q ∈ places, q.target = [] := by
        obtain ⟨q, hq, hnil⟩ := hroot
        rcases List.mem_append.mp hq with hold | hnew
        · exact ⟨q, hold, hnil⟩
        · rw [List.mem_singleton.mp hnew] at hnil
          exact absurd (hnil ▸ List.nil_prefix) hnot
      obtain ⟨place, hplace, htarget, hlongest⟩ := ih hplaces hroot'
      refine ⟨place, ?_, htarget, fun other hother hprefix => ?_⟩
      · rw [List.getElem?_append_left (List.getElem?_eq_some_iff.mp hplace).1, hplace]
      · rcases List.mem_append.mp hother with hold | hnew
        · exact hlongest other hold hprefix
        · exact absurd (List.mem_singleton.mp hnew ▸ hprefix) hnot

namespace Draft

/-! ### Levels and columns -/

/-- A level stands at a place: it has the row number of the place's table, and its target is what
leads there from the place of its parent. Every level but the root is one of a mapped table with
elements. -/
structure Stands (s : Statement) (tables : List MappedTable) (d : Draft) (place : Place)
    (level : Level) : Prop where
  /-- The level is known by the row numbers of its table. -/
  rowId : d.plan.rowIds[level.rowId]? = some (rowIdNameOf place.table)
  /-- Messages show where the level hangs, seen from the root. -/
  label : level.label = Target.text place.target
  /-- Messages show the table's name. -/
  table : level.table = s.tableName place.table
  /-- The root level is that of the primary table. -/
  root : level.parent? = none → place.table = 0 ∧ place.target = [] ∧ level.target = []
  /-- The target is that of the parent, then the level's own. -/
  below : ∀ i, level.parent? = some i →
    ∃ above, d.places[i]? = some above ∧ place.target = above.target ++ level.target
  /-- The level is that of a mapped table with elements, at its target. -/
  mapped : level.parent?.isSome → ∃ m ∈ tables, m.aggregated = false ∧ m.table = place.table ∧
    m.target = place.target ∧ m.single = level.single

/-- The column of an output lands at the longest place that encloses the output, at what is left of
the output's target. -/
def Lands (d : Draft) (o : Output Cell) (c : PlanColumn) : Prop :=
  c.type = o.type ∧ ∃ place, d.places[c.level]? = some place ∧ o.target = place.target ++ c.target ∧
    ∀ other ∈ d.places, other.target <+: o.target → other.target.length ≤ place.target.length

/-- The levels and columns of the plan are where the places say. -/
structure IsPlaced (s : Statement) (tables : List MappedTable) (os : List (Output Cell))
    (d : Draft) : Prop where
  /-- The places come shallowest first. -/
  sorted : d.places.Pairwise fun p q => p.target.length ≤ q.target.length
  /-- There is a place for the root. -/
  root : ∃ p ∈ d.places, p.target = []
  /-- Each level stands at its place. -/
  levels : List.Forall₂ (Stands s tables d) d.places d.plan.levels
  /-- Each output's column is at the output's place. -/
  columns : List.Forall₂ (Lands d) os d.plan.columns

variable {s : Statement} {tables : List MappedTable} {os : List (Output Cell)} {d d' : Draft}

theorem Stands.mono {place : Place} {level : Level} (h : Stands s tables d place level)
    (hrowIds : d.plan.rowIds <+: d'.plan.rowIds) (hplaces : d.places <+: d'.places) :
    Stands s tables d' place level where
  rowId := by
    obtain ⟨rest, hrest⟩ := hrowIds
    rw [← hrest, List.getElem?_append_left (List.getElem?_eq_some_iff.mp h.rowId).1, h.rowId]
  label := h.label
  table := h.table
  root := h.root
  below i hi := by
    obtain ⟨rest, hrest⟩ := hplaces
    obtain ⟨above, habove, htarget⟩ := h.below i hi
    refine ⟨above, ?_, htarget⟩
    rw [← hrest, List.getElem?_append_left (List.getElem?_eq_some_iff.mp habove).1, habove]
  mapped := h.mapped

/-- A witness does not move a level. -/
theorem Stands.addWitness {place : Place} {level : Level} (h : Stands s tables d place level)
    (w : Witness) : Stands s tables d place (level.addWitness w) := by
  rw [Level.addWitness]
  split
  · exact h
  · exact ⟨h.rowId, h.label, h.table, h.root, h.below, h.mapped⟩

theorem root_isPlaced (s : Statement) (tables : List MappedTable) :
    IsPlaced s tables [] (root s) where
  sorted := List.pairwise_singleton _ _
  root := ⟨_, List.mem_singleton_self _, rfl⟩
  levels := .cons ⟨rfl, rfl, rfl, fun _ => ⟨rfl, rfl, rfl⟩, nofun, nofun⟩ .nil
  columns := .nil

/-- The row numbers of a plan only grow. -/
theorem rowIds_prefix_rowId (d : Draft) (t : TableId) :
    d.plan.rowIds <+: (d.rowId t).2.plan.rowIds :=
  Plan.rowIds_prefix_addRowId _ _

/-- A level for the next mapped table, which is not shallower than those before. -/
theorem IsPlaced.addTable (h : IsPlaced s tables [] d) {m : MappedTable} (hm : m ∈ tables)
    (hrows : m.aggregated = false)
    (hdeeper : ∀ p ∈ d.places, p.target.length ≤ m.target.length) :
    IsPlaced s tables [] (d.addTable s m) ∧
      ∀ p ∈ (d.addTable s m).places, p ∈ d.places ∨ p.target = m.target := by
  obtain ⟨above, habove, htarget, -⟩ := enclosing_longest h.sorted h.root m.target
  rw [Draft.addTable]
  simp only
  generalize (enclosing d.places m.target).1 = parent at habove
  generalize (enclosing d.places m.target).2 = below at htarget
  split
  · exact ⟨h, fun p hp => Or.inl hp⟩
  · refine ⟨⟨?_, ?_, ?_, ?_⟩, fun p hp => ?_⟩
    · refine List.pairwise_append.mpr ⟨h.sorted, List.pairwise_singleton _ _, fun p hp q hq => ?_⟩
      rw [List.mem_singleton.mp hq]
      exact hdeeper p hp
    · obtain ⟨p, hp, hnil⟩ := h.root
      exact ⟨p, List.mem_append_left _ hp, hnil⟩
    · -- The levels that are there stay as they are; the new one stands below its parent.
      have hold : List.Forall₂ (Stands s tables d) d.places (d.rowId m.table).2.plan.levels := by
        rw [Draft.rowId, Plan.addRowId_levels]
        exact h.levels
      refine List.rel_append (hold.imp fun _ _ hp =>
        hp.mono (rowIds_prefix_rowId d m.table) (List.prefix_append _ _)) (.cons ?_ .nil)
      refine ⟨Plan.addRowId_getElem? _ _, rfl, rfl, by rintro ⟨⟩, fun i hi => ?_,
        fun _ => ⟨m, hm, hrows, rfl, rfl, rfl⟩⟩
      obtain rfl := Option.some.inj hi
      refine ⟨above, ?_, htarget⟩
      exact (List.getElem?_append_left (List.getElem?_eq_some_iff.mp habove).1).trans habove
    · rw [List.forall₂_nil_left_iff]
      exact (Plan.addRowId_columns _ _).trans (List.forall₂_nil_left_iff.mp h.columns)
    · rcases List.mem_append.mp hp with hold | hnew
      · exact Or.inl hold
      · exact Or.inr (by rw [List.mem_singleton.mp hnew])

/-- Levels for mapped tables that come shallowest first. -/
theorem IsPlaced.foldl_addTable {ms : List MappedTable} (h : IsPlaced s tables [] d)
    (hms : ∀ m ∈ ms, m ∈ tables ∧ m.aggregated = false)
    (hsorted : ms.Pairwise fun m n => m.target.length ≤ n.target.length)
    (hdeeper : ∀ p ∈ d.places, ∀ m ∈ ms, p.target.length ≤ m.target.length) :
    IsPlaced s tables [] (ms.foldl (Draft.addTable s) d) := by
  induction ms generalizing d with
  | nil => exact h
  | cons m ms ih =>
    obtain ⟨hfirst, hrest⟩ := List.pairwise_cons.mp hsorted
    obtain ⟨hm, hrows⟩ := hms m (List.mem_cons_self ..)
    obtain ⟨hadd, hplaces⟩ := h.addTable hm hrows fun p hp => hdeeper p hp m (List.mem_cons_self ..)
    refine ih hadd (fun n hn => hms n (List.mem_cons_of_mem _ hn)) hrest fun p hp n hn => ?_
    rcases hplaces p hp with hold | heq
    · exact hdeeper p hold n (List.mem_cons_of_mem _ hn)
    · exact heq ▸ hfirst n hn

theorem ofTables_isPlaced (s : Statement) (tables : List MappedTable) :
    IsPlaced s tables [] (ofTables s tables) := by
  refine (root_isPlaced s tables).foldl_addTable (fun m hm => ?_) ?_ fun p hp m _ => ?_
  · rw [List.mem_mergeSort, List.mem_filter, Bool.not_eq_true'] at hm
    exact hm
  · refine (List.pairwise_mergeSort (fun l m n hlm hmn => ?_) (fun m n => ?_) _).imp
      fun hmn => of_decide_eq_true hmn
    · exact decide_eq_true ((of_decide_eq_true hlm).trans (of_decide_eq_true hmn))
    · rw [Bool.or_eq_true, decide_eq_true_iff, decide_eq_true_iff]
      exact Nat.le_total _ _
  · rw [List.mem_singleton.mp hp]
    exact Nat.zero_le _

/-! ### Outputs -/

theorem IsPlaced.addWitness (h : IsPlaced s tables os d) (level : Nat) (t : TableId) :
    IsPlaced s tables os (d.addWitness s level t) ∧ (d.addWitness s level t).places = d.places := by
  have hlevels : List.Forall₂ (Stands s tables (d.addWitness s level t)) d.places
      (d.rowId t).2.plan.levels := by
    rw [Draft.rowId, Plan.addRowId_levels]
    exact h.levels.imp fun _ _ hp => hp.mono (rowIds_prefix_rowId d t) List.prefix_rfl
  refine ⟨⟨h.sorted, h.root, ?_, ?_⟩, rfl⟩
  · have hmodify := forall₂_modify (f := id) hlevels
      (fun _ _ hp => hp.addWitness ⟨(d.rowId t).1, s.tableName t⟩) level
    rwa [List.modify_id] at hmodify
  · have hcolumns : (d.addWitness s level t).plan.columns = d.plan.columns :=
      Plan.addRowId_columns _ _
    rw [hcolumns]
    exact h.columns

theorem IsPlaced.addOutput (h : IsPlaced s tables os d) (o : Output Cell) :
    IsPlaced s tables (os ++ [o]) (d.addOutput s o) := by
  obtain ⟨place, hplace, htarget, hlongest⟩ := enclosing_longest h.sorted h.root o.target
  rw [Draft.addOutput]
  simp only
  generalize (enclosing d.places o.target).1 = level at hplace
  generalize (enclosing d.places o.target).2 = below at htarget
  obtain ⟨hwitnesses, hplaces⟩ := List.foldlRecOn (witnessTables (d.lineage level) o.value)
    (Draft.addWitness s level) (motive := fun d' => IsPlaced s tables os d' ∧ d'.places = d.places)
    ⟨h, rfl⟩ fun _ hd t _ => ⟨(hd.1.addWitness level t).1, hd.2⟩
  generalize (witnessTables (d.lineage level) o.value).foldl (Draft.addWitness s level) d = d'
    at hwitnesses hplaces
  refine ⟨hwitnesses.sorted, hwitnesses.root, ?_,
    List.rel_append hwitnesses.columns (.cons ?_ .nil)⟩
  · exact hwitnesses.levels.imp fun _ _ hp => hp.mono List.prefix_rfl List.prefix_rfl
  · exact ⟨rfl, place, by rw [hplaces]; exact hplace, htarget, by rw [hplaces]; exact hlongest⟩

/-- **The plan of a mapping is laid out by its places.** -/
theorem ofMapping_isPlaced (s : Statement) (tables : List MappedTable) (os : List (Output Cell)) :
    IsPlaced s tables os (ofMapping s tables os) := by
  have hfold : ∀ (os' : List (Output Cell)) {os : List (Output Cell)} {d : Draft},
      IsPlaced s tables os d → IsPlaced s tables (os ++ os') (os'.foldl (Draft.addOutput s) d) := by
    intro os'
    induction os' with
    | nil => exact fun h => (List.append_nil _).symm ▸ h
    | cons o os' ih => exact fun h => List.append_cons .. ▸ ih (h.addOutput o)
  exact hfold os (ofTables_isPlaced s tables)

end Draft

/-- **An assembled plan is well formed.** Its levels are those of the draft's places and its row
numbers those of the draft's tables, each in the same order. Every output lands at the longest place
that encloses it. Whatever rows a materializer over the plan has read, the next one looks nothing up
out of range and breaks no invariant. -/
theorem layout_of_assemble {a : Assembler} {outputs : List (Output Cell)}
    {tables : List MappedTable} {assembled : Assembled} {n n' : Nat}
    (h : (a.assemble outputs tables).run n = .ok (assembled, n')) :
    let d := Draft.ofMapping a.statement tables outputs
    assembled.plan = d.plan ∧ d.plan.WellFormed ∧ d.plan.rowIds = d.rowIdTables.map rowIdNameOf ∧
      d.IsPlaced a.statement tables outputs ∧
      ∀ (rows : List Row) (r : Row),
        let g := Graph.after assembled.plan rows
        (Graph.Checked.push assembled.plan r).run.run g =
            (Graph.push assembled.plan r).run.run g ∧
          ∀ v, ¬ Fails (Graph.Checked.push assembled.plan r) g (.invariant v) := by
  have hplan := (Assembler.assemble_run_eq_ok h).2.1
  have hformed := (Draft.ofMapping_isGuarded a.statement tables outputs).built.wellFormed
  refine ⟨hplan, hformed, (Draft.ofMapping_collects a.statement tables outputs).1.rowIds,
    Draft.ofMapping_isPlaced a.statement tables outputs, fun rows r => ?_⟩
  rw [hplan]
  exact Graph.checked_push_after hformed rows r

/-- Each person's name, with the titles of the person's classes. -/
def namesWithTitles : Expr :=
  .object [("name", shapeField "person" "name"),
    ("classes", .select (.member .row "classes") "c"
      (.object [("title", .member (.var "c") "title")]))]

/-- The titles stand at a level of their own, below the people. -/
theorem layout_of_assemble_namesWithTitles :
    ∃ st assembled n', people.stages .snakeCase namesWithTitles = .ok st ∧
      ((st.assembler .ansi).assemble st.outputs st.compiled.tables).run 0 = .ok (assembled, n') ∧
      assembled.plan.levels.map Level.target = [[], [.field "classes"]] ∧
      assembled.plan.columns.map PlanColumn.target = [[.field "name"], [.field "title"]] ∧
      assembled.plan.WellFormed ∧ st.draft.IsPlaced st.statement st.compiled.tables st.outputs ∧
      ∀ (rows : List Row) (r : Row) (v : Invariant),
        ¬ Fails (Graph.Checked.push assembled.plan r) (Graph.after assembled.plan rows)
          (.invariant v) := by
  have hstages : (people.stages .snakeCase namesWithTitles).any (fun st =>
      (((st.assembler .ansi).assemble st.outputs st.compiled.tables).run 0).any fun x =>
        x.1.plan.levels.map Level.target == [[], [.field "classes"]] &&
        x.1.plan.columns.map PlanColumn.target == [[.field "name"], [.field "title"]]) = true := by
    decide +kernel
  obtain ⟨st, hst, hrun⟩ := Result.any_eq_true_iff.mp hstages
  obtain ⟨⟨assembled, n'⟩, hassembled, htargets⟩ := Result.any_eq_true_iff.mp hrun
  rw [Bool.and_eq_true, beq_iff_eq, beq_iff_eq] at htargets
  obtain ⟨hplan, hformed, -, hplaced, hpush⟩ := layout_of_assemble hassembled
  exact ⟨st, assembled, n', hst, hassembled, htargets.1, htargets.2, hplan ▸ hformed, hplaced,
    fun rows r => (hpush rows r).2⟩

end NestedQuery
