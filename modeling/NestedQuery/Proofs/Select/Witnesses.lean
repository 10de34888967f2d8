import NestedQuery.Proofs.Graph.Conflict
import NestedQuery.Proofs.Select.Aggregates

/-!
# Values and witnesses

The value of an output comes from the first row of its element, and other rows of the element may
have other rows of the tables that it reads. So each table that an output reads row by row is one
of the lineage of its level, or its row number is a witness there (`Draft.IsGuarded`). Rows that
share an element then share the row numbers of all these tables, and if these determine the value,
it is the value of every row of the element (`cells_of_forM_push`); rows that differ are refused.
-/

namespace NestedQuery

theorem Level.mem_witnesses_addWitness (l : Level) (w : Witness) {x : Witness} :
    x ∈ (l.addWitness w).witnesses ↔ x ∈ l.witnesses ∨ x = w := by
  rw [Level.addWitness]
  split
  · rename_i hw
    exact ⟨Or.inl, fun h => h.elim id fun hx => hx ▸ hw⟩
  · rw [List.mem_append, List.mem_singleton]

namespace Plan

/-- A level has the row number with a name as a witness. -/
def Guards (p : Plan) (i : Nat) (name : String) : Prop :=
  ∃ level, p.levels[i]? = some level ∧ ∃ w ∈ level.witnesses, p.rowIds[w.rowId]? = some name

variable {p q : Plan} {i : Nat} {name : String}

theorem Carries.exists_level {r : Row} {k : Chain} (h : p.Carries r i k) :
    ∃ level, p.levels[i]? = some level := by
  cases h with
  | root hlevel => exact ⟨_, hlevel⟩
  | child hlevel => exact ⟨_, hlevel⟩

/-- A plan that goes on keeps its witnesses. -/
theorem Guards.mono (h : p.Guards i name)
    (hlevels : ∀ (i : Nat) (level : Level), p.levels[i]? = some level →
      ∃ level', q.levels[i]? = some level' ∧ level.witnesses ⊆ level'.witnesses)
    (hrowIds : p.rowIds <+: q.rowIds) : q.Guards i name := by
  obtain ⟨level, hlevel, w, hw, hname⟩ := h
  obtain ⟨level', hlevel', hsubset⟩ := hlevels i level hlevel
  obtain ⟨rest, hrest⟩ := hrowIds
  refine ⟨level', hlevel', w, hsubset hw, ?_⟩
  rw [← hrest, List.getElem?_append_left (List.getElem?_eq_some_iff.mp hname).1, hname]

theorem rowIds_prefix_addRowId (p : Plan) (name : String) :
    p.rowIds <+: (p.addRowId name).2.rowIds := by
  rw [addRowId]
  split
  · exact List.prefix_rfl
  · exact List.prefix_append _ _

theorem Guards.addRowId (h : p.Guards i name) (new : String) :
    (p.addRowId new).2.Guards i name :=
  h.mono (fun _ level hlevel => ⟨level, by rwa [addRowId_levels], List.Subset.refl _⟩)
    (rowIds_prefix_addRowId p new)

theorem Guards.addWitness (h : p.Guards i name) (n : Nat) (w : Witness) :
    (p.addWitness n w).Guards i name := by
  refine h.mono (fun j level hlevel => ?_) List.prefix_rfl
  rw [Plan.addWitness, List.getElem?_modify, hlevel]
  refine ⟨if n = j then level.addWitness w else level, rfl, fun x hx => ?_⟩
  split
  · exact (level.mem_witnesses_addWitness w).mpr (Or.inl hx)
  · exact hx

/-- The witness that is added is one of its level. -/
theorem guards_addWitness (hi : i < p.levels.length) {w : Witness}
    (hname : p.rowIds[w.rowId]? = some name) : (p.addWitness i w).Guards i name := by
  refine ⟨p.levels[i].addWitness w, ?_, w, ?_, hname⟩
  · rw [Plan.addWitness, List.getElem?_modify, List.getElem?_eq_getElem hi]
    exact congrArg some (if_pos rfl)
  · exact (Level.mem_witnesses_addWitness _ w).mpr (Or.inr rfl)

end Plan

namespace Draft

variable {s : Statement} {d : Draft} {os : List (Output Cell)}

/-! ### The plan of a draft -/

/-- The draft is laid out, its plan is built step by step, and each output so far has a column whose
level has all tables as witnesses that the output reads outside the lineage. -/
structure IsGuarded (os : List (Output Cell)) (d : Draft) : Prop where
  laidOut : d.IsLaidOut
  built : d.plan.Built
  guards : List.Forall₂ (fun o c => ∀ t ∈ witnessTables (d.lineage c.level) o.value,
    d.plan.Guards c.level (rowIdNameOf t)) os d.plan.columns

theorem rowId_lt (d : Draft) (t : TableId) :
    (d.rowId t).1 < (d.rowId t).2.plan.rowIds.length :=
  (List.getElem?_eq_some_iff.mp (Plan.addRowId_getElem? _ _)).1

theorem addTable_columns (s : Statement) (d : Draft) (m : MappedTable) :
    (d.addTable s m).plan.columns = d.plan.columns := by
  rw [Draft.addTable]
  simp only
  split
  · rfl
  · exact Plan.addRowId_columns _ _

theorem IsGuarded.addTable (h : d.IsGuarded []) (m : MappedTable) :
    (d.addTable s m).IsGuarded [] where
  laidOut := h.laidOut.addTable m
  built := by
    have hparent := enclosing_lt h.laidOut.places_ne_nil m.target
    rw [h.laidOut.length_eq] at hparent
    rw [Draft.addTable]
    simp only
    split
    · exact h.built
    · exact .addLevel _ _ _ _ (.addRowId _ h.built) (by rwa [Draft.rowId, Plan.addRowId_levels])
        (rowId_lt d m.table)
  guards := by
    rw [addTable_columns, List.forall₂_nil_left_iff]
    exact List.forall₂_nil_left_iff.mp h.guards

theorem ofTables_isGuarded (s : Statement) (tables : List MappedTable) :
    (ofTables s tables).IsGuarded [] :=
  List.foldlRecOn _ _ ⟨root_isLaidOut s, .root _ _, .nil⟩ fun _ hd m _ => hd.addTable m

/-- A table becomes a witness, and nothing that was one is lost. -/
theorem IsGuarded.addWitness (h : d.IsGuarded os) {level : Nat}
    (hlevel : level < d.plan.levels.length) (t : TableId) :
    (d.addWitness s level t).IsGuarded os ∧
      (d.addWitness s level t).plan.Guards level (rowIdNameOf t) ∧
      ∀ i name, d.plan.Guards i name → (d.addWitness s level t).plan.Guards i name := by
  have hlevel' : level < (d.rowId t).2.plan.levels.length := by
    rwa [Draft.rowId, Plan.addRowId_levels]
  have hkept : ∀ i name, d.plan.Guards i name → (d.addWitness s level t).plan.Guards i name :=
    fun i name hguards => (hguards.addRowId (rowIdNameOf t)).addWitness level _
  refine ⟨⟨h.laidOut.addWitness level t, ?_, ?_⟩, ?_, hkept⟩
  · exact .addWitness (.addRowId _ h.built) hlevel' (rowId_lt d t)
  · have hcolumns : (d.addWitness s level t).plan.columns = d.plan.columns :=
      Plan.addRowId_columns _ _
    rw [hcolumns]
    exact h.guards.imp fun o c hc u hu => hkept _ _ (hc u hu)
  · exact Plan.guards_addWitness hlevel' (Plan.addRowId_getElem? _ _)

theorem IsGuarded.foldl_addWitness (h : d.IsGuarded os) {level : Nat}
    (hlevel : level < d.plan.levels.length) (ts : List TableId) {d' : Draft}
    (hd' : ts.foldl (Draft.addWitness s level) d = d') :
    d'.IsGuarded os ∧ d'.places = d.places ∧
      (∀ i name, d.plan.Guards i name → d'.plan.Guards i name) ∧
      ∀ t ∈ ts, d'.plan.Guards level (rowIdNameOf t) := by
  induction ts generalizing d with
  | nil =>
    subst hd'
    exact ⟨h, rfl, fun _ _ hguards => hguards, fun t ht => absurd ht List.not_mem_nil⟩
  | cons t ts ih =>
    obtain ⟨hadd, hguards, hkept⟩ := h.addWitness (s := s) hlevel t
    have hlength : level < (d.addWitness s level t).plan.levels.length := by
      rw [← hadd.laidOut.length_eq]
      exact h.laidOut.length_eq ▸ hlevel
    obtain ⟨hfold, hplaces, hkept', hguards'⟩ := ih hadd hlength hd'
    refine ⟨hfold, hplaces, fun i name hi => hkept' i name (hkept i name hi), fun u hu => ?_⟩
    rcases List.mem_cons.mp hu with rfl | hu
    · exact hkept' _ _ hguards
    · exact hguards' u hu

/-- One more output, with its witnesses at its level. -/
theorem IsGuarded.addOutput (h : d.IsGuarded os) (o : Output Cell) :
    (d.addOutput s o).IsGuarded (os ++ [o]) := by
  have hlevel := enclosing_lt h.laidOut.places_ne_nil o.target
  rw [h.laidOut.length_eq] at hlevel
  have hlaid := h.laidOut.addOutput (s := s) o
  rw [Draft.addOutput] at hlaid ⊢
  simp only at hlaid ⊢
  generalize (enclosing d.places o.target).1 = level at hlevel hlaid ⊢
  generalize hd' : (witnessTables (d.lineage level) o.value).foldl (Draft.addWitness s level) d = d'
    at hlaid ⊢
  obtain ⟨hfold, hplaces, -, hguards⟩ := h.foldl_addWitness hlevel _ hd'
  have hlevel' : level < d'.plan.levels.length := by
    rw [← hfold.laidOut.length_eq, hplaces, h.laidOut.length_eq]
    exact hlevel
  refine ⟨hlaid, .addColumn hfold.built hlevel', List.rel_append hfold.guards (.cons ?_ .nil)⟩
  intro t ht
  have hlineage : d'.lineage level = d.lineage level := by rw [lineage, hplaces, lineage]
  exact hguards t (hlineage ▸ ht)

/-- **The draft of a mapping is guarded**: what an output reads row by row is of its lineage or a
witness of its level. -/
theorem ofMapping_isGuarded (s : Statement) (tables : List MappedTable)
    (os : List (Output Cell)) : (ofMapping s tables os).IsGuarded os := by
  have hfold : ∀ (os' : List (Output Cell)) {os : List (Output Cell)} {d : Draft},
      d.IsGuarded os → (os'.foldl (Draft.addOutput s) d).IsGuarded (os ++ os') := by
    intro os'
    induction os' with
    | nil => exact fun h => (List.append_nil _).symm ▸ h
    | cons o os' ih => exact fun h => List.append_cons .. ▸ ih (h.addOutput o)
  exact hfold os (ofTables_isGuarded s tables)

/-! ### Rows of one element -/

variable {value : Term} {t : TableId}

/-- A value without aggregates and without folded leaves has all tables that it reads outside the
lineage as witnesses. -/
theorem mem_witnessTables_of_mem_readTables
    (hrows : value.aggregation Cell.isParam = .none)
    (hfolded : ∀ leaf ∈ value.leaves, leaf.isFolded = false) (ht : t ∈ Term.readTables value)
    {lineage : List TableId} (hlineage : t ∉ lineage) : t ∈ witnessTables lineage value := by
  obtain ⟨c, hc, rfl⟩ := Term.mem_readTables_iff.mp ht
  obtain ⟨leaf, hleaf, hcolumn⟩ := List.mem_filterMap.mp hc
  obtain ⟨x, hx, rfl⟩ := List.mem_map.mp hleaf
  refine mem_witnessTables.mpr ⟨⟨x, hx, ?_, ?_⟩, hlineage⟩
  · exact Accumulator.not_beneath_of_aggregation_eq_none value hrows x hx
  · have hown := hfolded x.1 hleaf
    generalize x.1 = leaf at hown hcolumn
    cases leaf with
    | param id => exact absurd hcolumn nofun
    | column c' rowId function type =>
      obtain rfl := Option.some.inj hcolumn
      rw [Cell.isFolded, bne_eq_false_iff_eq] at hown
      rw [Cell.rowId?, Option.map_some, hown]

/-- Rows of one element that agree about its witnesses have the same row numbers for all tables that
an output of its level reads. -/
theorem IsGuarded.rowNumber?_eq (h : d.IsGuarded os) {j : Nat} {o : Output Cell} {c : PlanColumn}
    (ho : os[j]? = some o) (hc : d.plan.columns[j]? = some c)
    (hrows : o.value.aggregation Cell.isParam = .none)
    (hfolded : ∀ leaf ∈ o.value.leaves, leaf.isFolded = false) {r r' : Row} {k : Chain}
    (hk : d.plan.Carries r c.level k) (hk' : d.plan.Carries r' c.level k) {level : Level}
    (hlevel : d.plan.levels[c.level]? = some level)
    (hwitnesses : d.plan.witnessNumbers r level = d.plan.witnessNumbers r' level)
    (ht : t ∈ Term.readTables o.value) :
    r.rowNumber? (rowIdNameOf t) = r'.rowNumber? (rowIdNameOf t) := by
  by_cases hlineage : t ∈ d.lineage c.level
  · -- The chain that the rows share is made of the row numbers of the lineage.
    have hplaces : c.level < d.places.length :=
      h.laidOut.length_eq ▸ (List.getElem?_eq_some_iff.mp hlevel).1
    have hnames := h.laidOut.chainNames_lineage hplaces
    have heq := (hnames.carries_iff.mp hk).trans (hnames.carries_iff.mp hk').symm
    exact List.map_inj_left.mp heq _ (List.mem_reverse.mpr (List.mem_map_of_mem hlineage))
  · have hwitness := mem_witnessTables_of_mem_readTables hrows hfolded ht hlineage
    obtain ⟨hj, rfl⟩ := List.getElem?_eq_some_iff.mp ho
    obtain ⟨hj', rfl⟩ := List.getElem?_eq_some_iff.mp hc
    obtain ⟨level', hlevel', w, hw, hname⟩ := h.guards.get hj hj' t hwitness
    obtain rfl := Option.some.inj (hlevel.symm.trans hlevel')
    have heq := List.map_inj_left.mp hwitnesses w hw
    rwa [Plan.numberAt?, Plan.numberAt?, hname] at heq

end Draft

theorem Plan.cells?_congr {p : Plan} {r r' : Row} {i : Nat}
    (h : ∀ c ∈ p.columnsAt i, r.find? c.name = r'.find? c.name) : p.cells? r i = p.cells? r' i :=
  mapM_congr fun c hc => by rw [Row.document?, h c hc, Row.document?]

/-- **No value is taken from an arbitrary row.** The statement has outputs without aggregates, none
of whose leaves is folded into another table, and each is determined by the row numbers of the
tables that it reads. If the rows are read, then each row finds at every level where it has a chain
the element with this chain, and the element's cells are those of the row. If the rows can be read,
and two of them share a chain but not the cells, they fail with a violation of cardinality. -/
theorem cells_of_forM_push {a : Assembler} {outputs : List (Output Cell)}
    {tables : List MappedTable} {assembled : Assembled} {n n' : Nat}
    (h : (a.assemble outputs tables).run n = .ok (assembled, n'))
    (hrows : ∀ o ∈ outputs, o.value.aggregation Cell.isParam = .none)
    (hfolded : ∀ o ∈ outputs, ∀ leaf ∈ o.value.leaves, leaf.isFolded = false)
    {header : List String} {rows : List Row} (hheader : ∀ r ∈ rows, r.columns = header)
    (hdetermined : ∀ (j : Nat) (o : Output Cell) (c : PlanColumn), outputs[j]? = some o →
      assembled.plan.columns[j]? = some c → ∀ r ∈ rows, ∀ r' ∈ rows,
        (∀ t ∈ Term.readTables o.value,
          r.rowNumber? (rowIdNameOf t) = r'.rowNumber? (rowIdNameOf t)) →
        r.find? c.name = r'.find? c.name) :
    (∀ g, Yields (rows.forM (Graph.push assembled.plan)) {} () g →
      ∀ r ∈ rows, ∀ i k, assembled.plan.Carries r i k →
        ∃ place node, g.index.lookup (i, k) = some place ∧ g.nodes[place]? = some node ∧
          assembled.plan.cells? r i = some node.cells) ∧
    ((∀ r ∈ rows, r.IsReadable assembled.plan) →
      ∀ r ∈ rows, ∀ r' ∈ rows, ∀ i k, assembled.plan.Carries r i k →
        assembled.plan.Carries r' i k →
        assembled.plan.cells? r i ≠ assembled.plan.cells? r' i →
        ∃ table path detail, Fails (rows.forM (Graph.push assembled.plan)) {}
          (.crowded table path detail)) := by
  have hplan := (Assembler.assemble_run_eq_ok h).2.1
  have hguarded := Draft.ofMapping_isGuarded a.statement tables outputs
  rw [hplan] at hdetermined ⊢
  generalize Draft.ofMapping a.statement tables outputs = d at hdetermined hguarded ⊢
  have hp := hguarded.built.wellFormed
  -- Every row has the cells that its element has taken from an earlier one.
  have hcells : ∀ g, Yields (rows.forM (Graph.push d.plan)) {} () g →
      ∀ r ∈ rows, ∀ i k, d.plan.Carries r i k →
        ∃ place node, g.index.lookup (i, k) = some place ∧ g.nodes[place]? = some node ∧
          d.plan.cells? r i = some node.cells := by
    intro g hg r hr i k hk
    obtain ⟨level, hlevel⟩ := hk.exists_level
    obtain ⟨place, node, hplace, hnode, r₀, hr₀, hk₀, hcells, hwitnesses⟩ :=
      Graph.exists_node_of_forM_push hp hheader hg hr hlevel hk
    refine ⟨place, node, hplace, hnode, hcells ▸ Plan.cells?_congr fun c hc => ?_⟩
    obtain ⟨hmem, hlevel'⟩ := List.mem_filter.mp hc
    obtain rfl := beq_iff_eq.mp hlevel'
    obtain ⟨j, hj⟩ := List.mem_iff_getElem?.mp hmem
    have hlt : j < outputs.length :=
      hguarded.guards.length_eq ▸ (List.getElem?_eq_some_iff.mp hj).1
    have ho := List.getElem?_eq_getElem hlt
    have hmem := List.getElem_mem hlt
    exact hdetermined j _ c ho hj r hr r₀ hr₀ fun t ht =>
      hguarded.rowNumber?_eq ho hj (hrows _ hmem) (hfolded _ hmem) hk hk₀ hlevel
        hwitnesses.symm ht
  refine ⟨hcells, fun hreadable r hr r' hr' i k hk hk' hne => ?_⟩
  obtain ⟨_, g, hg⟩ | ⟨e, he⟩ := yields_or_fails (rows.forM (Graph.push d.plan)) {}
  · obtain ⟨place, node, hplace, hnode, heq⟩ := hcells g hg r hr i k hk
    obtain ⟨place', node', hplace', hnode', heq'⟩ := hcells g hg r' hr' i k hk'
    obtain rfl := Option.some.inj (hplace.symm.trans hplace')
    obtain rfl := Option.some.inj (hnode.symm.trans hnode')
    exact absurd (heq.trans heq'.symm) hne
  · obtain ⟨-, table, path, detail, rfl⟩ :=
      Graph.conflict_of_forM_push_fails hp hheader hreadable he
    exact ⟨table, path, detail, he⟩

/-- Each person's name, and the title of the person's class. -/
def namesAndTitles : Expr :=
  .object [("name", shapeField "person" "name"), ("title", shapeField "classes" "title")]

/-- A row for a person and a class. -/
def titleRow (person : Int64) (name : String) (number : Int64) (title : String) : Row where
  columns := ["name", "title", "t0.##rowid", "t1.##rowid"]
  cells := [.text name, .text title, .integer person, .integer number]

/-- Two people with a class each; one row comes twice. -/
def titleRows : List Row :=
  [titleRow 1 "Ann" 10 "Art", titleRow 2 "Bob" 11 "Law", titleRow 1 "Ann" 10 "Art"]

theorem cells_of_forM_push_titles :
    ∃ st assembled n', people.stages .snakeCase namesAndTitles = .ok st ∧
      ((st.assembler .ansi).assemble st.outputs st.compiled.tables).run 0 = .ok (assembled, n') ∧
      ∃ g, Yields (titleRows.forM (Graph.push assembled.plan)) {} () g ∧
        ∀ r ∈ titleRows, ∀ i k, assembled.plan.Carries r i k →
          ∃ place node, g.index.lookup (i, k) = some place ∧ g.nodes[place]? = some node ∧
            assembled.plan.cells? r i = some node.cells := by
  have hstages : (people.stages .snakeCase namesAndTitles).any (fun st =>
      st.outputs.all (fun o => o.value.aggregation Cell.isParam == .none &&
        o.value.leaves.all (fun leaf => !leaf.isFolded) &&
        (Term.readTables o.value).any fun t => t == 0 || t == 1) &&
      (((st.assembler .ansi).assemble st.outputs st.compiled.tables).run 0).any fun x =>
        ((titleRows.forM (Graph.push x.1.plan)).run.run {}).1.toBool) = true := by
    decide +kernel
  obtain ⟨st, hst, hall⟩ := Result.any_eq_true_iff.mp hstages
  obtain ⟨houtputs, hrun⟩ := Bool.and_eq_true_iff.mp hall
  obtain ⟨⟨assembled, n'⟩, hassembled, hread⟩ := Result.any_eq_true_iff.mp hrun
  simp only [List.all_eq_true, Bool.and_eq_true, beq_iff_eq, Bool.not_eq_true', List.any_eq_true,
    Bool.or_eq_true] at houtputs
  have hheader : ∀ r ∈ titleRows, r.columns = ["name", "title", "t0.##rowid", "t1.##rowid"] := by
    simp [titleRows, titleRow]
  obtain ⟨_, g, hg⟩ | ⟨e, he⟩ := yields_or_fails (titleRows.forM (Graph.push assembled.plan)) {}
  · refine ⟨st, assembled, n', hst, hassembled, g, hg, ?_⟩
    refine (cells_of_forM_push hassembled (fun o ho => (houtputs o ho).1.1)
      (fun o ho => (houtputs o ho).1.2) hheader fun j o c ho _ r hr r' hr' hsame => ?_).1 g hg
    obtain ⟨t, ht, htable⟩ := (houtputs o (List.mem_of_getElem? ho)).2
    have hnumber := hsame t ht
    simp only [titleRows, List.mem_cons, List.not_mem_nil, or_false] at hr hr'
    -- Different rows are of different people with different classes.
    rcases hr with rfl | rfl | rfl <;> rcases hr' with rfl | rfl | rfl <;>
      first | rfl | (rcases htable with rfl | rfl <;> exact absurd hnumber (by decide))
  · rw [Fails] at he
    rw [he] at hread
    cases hread

end NestedQuery
