import Mathlib.Data.List.Perm.Subperm
import NestedQuery.Proofs.Select.Grouped

/-!
# What a statement selects

The items of a statement's select list are the columns of its plan and then the plan's row numbers,
each under its name, and a reader finds them by these names. The names of the columns are chosen so
that they differ (`freshName_notMem`), and so do those of the row numbers; but a column may be named
like a row number, since the name of a column is made of the members that the mapping chooses. So
the reader finds everything at its place just if that does not happen (`positions_of_compile_iff`).
-/

namespace NestedQuery

open Fragment

/-! ### Items -/

/-- The items of the select list of a level, which commas separate. -/
def selectItems (level : List SqlNode) : List (List SqlNode) :=
  (clauseNodes .select level).splitOnP (SqlNode.isToken .comma)

/-- The name that an item gives to its value. -/
def itemName? (item : List SqlNode) : Option String :=
  match item.reverse with
  | .chunk (.ident name) :: .chunk (.token .as_) :: _ => some name
  | _ => none

/-- The item is a value under a name. -/
def IsNamed (value : Fragment) (name : String) (item : List SqlNode) : Prop :=
  ∃ ns, Nests value ns ∧ item = ns ++ [.chunk (.token .as_), .chunk (.ident name)]

theorem IsNamed.itemName?_eq {value : Fragment} {name : String} {item : List SqlNode}
    (h : IsNamed value name item) : itemName? item = some name := by
  obtain ⟨ns, -, rfl⟩ := h
  rw [itemName?, List.reverse_append]
  rfl

/-- The fragment adds nodes without commas among them. -/
def IsItem (f : Fragment) : Prop :=
  ∃ ns, Nests f ns ∧ ∀ n ∈ ns, n.isToken .comma = false

theorem IsItem.append {f g : Fragment} (hf : IsItem f) (hg : IsItem g) : IsItem (f ++ g) := by
  obtain ⟨ns, hns, hnot⟩ := hf
  obtain ⟨ms, hms, hnot'⟩ := hg
  exact ⟨_, hns.append hms, List.forall_mem_append.mpr ⟨hnot, hnot'⟩⟩

theorem isItem_token {t : Token} (hopen : t ≠ .openParen) (hclose : t ≠ .closeParen)
    (hcomma : t ≠ .comma) : IsItem [.token t] := by
  refine ⟨_, nests_token hopen hclose, List.forall_mem_singleton.mpr ?_⟩
  simpa [SqlNode.isToken] using hcomma.symm

theorem isItem_parens {f : Fragment} {ns : List SqlNode} (h : Nests f ns) : IsItem f.parens :=
  ⟨_, h.parens, List.forall_mem_singleton.mpr rfl⟩

theorem isItem_call {f : Fragment} {ns : List SqlNode} (h : Nests f ns) (name : String) :
    IsItem (Fragment.call name f) := by
  obtain ⟨ms, hms⟩ := h.call name
  exact ⟨_, hms, by simp [SqlNode.isToken]⟩

theorem IsItem.named {f : Fragment} (h : IsItem f) (name : String) : IsItem (f.named name) := by
  obtain ⟨ns, hns, hnot⟩ := h
  exact ⟨_, hns.named name, List.forall_mem_append.mpr ⟨hnot, by simp [SqlNode.isToken]⟩⟩

theorem Engine.isItem_aggregate (e : Engine) (function : Aggregate) {operand : Fragment}
    {ns : List SqlNode} (h : Nests operand ns) (distinct : Bool) :
    IsItem (e.aggregate function operand distinct) := by
  obtain ⟨ms, hms⟩ := h.distinct distinct
  rcases e.aggregate_eq function operand distinct with heq | ⟨type, -, heq⟩
  · exact heq ▸ isItem_call hms function.sqlName
  · obtain ⟨args, hargs⟩ := hms.call function.sqlName
    exact heq ▸ isItem_call (hargs.append ((nests_tokens [.as_] rfl).append (nests_raw type))) _

namespace TermWriter

variable {w : TermWriter}

theorem isItem_column (w : TermWriter) (c : ColumnRef) : IsItem (w.column c) :=
  ⟨_, w.nests_column c, by simp [SqlNode.isToken]⟩

theorem isItem_aggregate (w : TermWriter) (function : Aggregate) (operand : Term) :
    IsItem (w.aggregate function operand (w.term operand)) := by
  obtain ⟨f, argument, distinct, ns, heq, hns⟩ := w.exists_nests_aggregate function operand
  exact heq ▸ w.engine.isItem_aggregate f hns distinct

theorem isItem_asOperand {t : Term} (h : IsItem (w.term t)) :
    IsItem (asOperand t (w.term t)) := by
  unfold asOperand
  split
  · obtain ⟨ns, hns, -⟩ := h
    exact isItem_parens hns
  · exact h

theorem isItem_leaf (w : TermWriter) (a : Cell) : IsItem (w.leaf a) := by
  cases a with
  | param id => exact ⟨_, nests_param id, by simp [SqlNode.isToken]⟩
  | column c r function type =>
    cases function with
    | none => exact w.isItem_column c
    | some f => exact isItem_call (w.nests_column c) f.sqlName

theorem isItem_membership {subject written : Fragment} (hsubject : IsItem subject)
    {ns : List SqlNode} (hwritten : Nests written ns) (list : Term) :
    IsItem (w.membership subject list written) := by
  have hin : IsItem (subject ++ [.token .in_] ++ written.parens) :=
    (hsubject.append (isItem_token (by simp) (by simp) (by simp))).append (isItem_parens hwritten)
  unfold membership
  split
  · next id =>
    split
    · obtain ⟨ms, hms, hnot⟩ := hsubject
      refine ⟨_, hms.inList id, List.forall_mem_append.mpr ⟨hnot, ?_⟩⟩
      simp [SqlNode.isToken]
    · exact hin
  · exact hin

theorem isItem_case {bs otherwise : Fragment} (hbs : IsItem bs) (hotherwise : IsItem otherwise) :
    IsItem ([.token .case] ++ bs ++ [.token .else_] ++ otherwise ++ [.token .end_]) := by
  have htoken : ∀ t ∈ [Token.case, .else_, .end_], IsItem [.token t] := by
    intro t ht
    refine isItem_token ?_ ?_ ?_ <;> revert t <;> decide
  exact ((((htoken _ (by simp)).append hbs).append (htoken _ (by simp))).append hotherwise).append
    (htoken _ (by simp))

mutual

/-- **A single value is one item**: no comma stands in it outside parentheses. -/
theorem isItem_term : (t : Term) → t.isSingle = true → IsItem (w.term t)
  | .leaf a, _ => by
    rw [term]
    exact w.isItem_leaf a
  | .binary op left right, h => by
    -- A comma is the only operator that would split the item.
    cases op with
    | comma => cases h
    | isIn =>
      obtain ⟨ns, hns⟩ := w.exists_nests_term right
      rw [term]
      exact isItem_membership (isItem_asOperand (isItem_term left h)) hns right
    | _ =>
      rw [Accumulator.isSingle_binary (by simp) (by simp), Bool.and_eq_true] at h
      have hop : ∀ text, IsItem [.raw text] := fun text =>
        ⟨_, nests_raw text, by simp [SqlNode.isToken]⟩
      exact ((isItem_asOperand (isItem_term left h.1)).append (hop _)).append
        (isItem_asOperand (isItem_term right h.2))
  | .wrap .not operand, h => by
    rw [term]
    exact (isItem_token (t := .not) (by simp) (by simp) (by simp)).append
      (isItem_asOperand (isItem_term operand h))
  | .wrap .negate operand, h => by
    rw [term]
    exact (isItem_token (t := .minus) (by simp) (by simp) (by simp)).append
      (isItem_asOperand (isItem_term operand h))
  | .wrap (.aggregate function) operand, _ => by
    rw [term]
    exact w.isItem_aggregate function operand
  | .wrap (.apply function) operand, _ => by
    obtain ⟨ns, hns⟩ := w.exists_nests_term operand
    rw [term]
    exact isItem_call hns function.sqlName
  | .cases bs otherwise, h => by
    rw [Accumulator.isSingle, Bool.and_eq_true] at h
    rw [term]
    exact isItem_case (isItem_branches bs h.1) (isItem_term otherwise h.2)
  | .casesOf subject bs otherwise, h => by
    rw [Accumulator.isSingle, Bool.and_eq_true, Bool.and_eq_true] at h
    rw [term, List.append_assoc [_]]
    exact isItem_case ((isItem_asOperand (isItem_term subject h.1)).append
      (isItem_branches bs h.2.1)) (isItem_term otherwise h.2.2)

theorem isItem_branches : (bs : List (Term × Term)) → Accumulator.areSingle bs = true →
    IsItem (w.branches bs)
  | [], _ => by
    rw [branches]
    exact ⟨[], nests_nil, List.forall_mem_nil _⟩
  | (test, value) :: rest, h => by
    rw [Accumulator.areSingle, Bool.and_eq_true, Bool.and_eq_true] at h
    have hwhen : IsItem [.token .when] := isItem_token (by simp) (by simp) (by simp)
    have hthen : IsItem [.token .then_] := isItem_token (by simp) (by simp) (by simp)
    rw [branches]
    exact (((hwhen.append (isItem_term test h.1)).append hthen).append
      (isItem_term value h.2.1)).append (isItem_branches rest h.2.2)

end

end TermWriter

/-! ### Select lists -/

/-- The commas between items separate them. -/
theorem exists_splitOnP_joined {fs : List Fragment} (hfs : ∀ f ∈ fs, IsItem f) (hne : fs ≠ []) :
    ∃ ns, Nests (Fragment.joined fs .comma) ns ∧
      List.Forall₂ Nests fs (ns.splitOnP (SqlNode.isToken .comma)) := by
  rw [Fragment.joined]
  induction fs with
  | nil => exact absurd rfl hne
  | cons f fs ih =>
    rw [List.forall_mem_cons] at hfs
    obtain ⟨⟨ms, hms, hnot⟩, hfs⟩ := hfs
    cases fs with
    | nil =>
      rw [List.intercalate_singleton]
      refine ⟨ms, hms, ?_⟩
      rw [List.splitOnP_eq_singleton hnot]
      exact .cons hms .nil
    | cons g fs =>
      obtain ⟨ns, hns, hitems⟩ := ih hfs (List.cons_ne_nil _ _)
      rw [List.intercalate_cons_cons]
      have hcomma : Nests [.token .comma] [.chunk (.token .comma)] := nests_tokens [.comma] rfl
      refine ⟨_, (hms.append hcomma).append hns, ?_⟩
      rw [List.append_assoc, List.singleton_append,
        List.splitOnP_append_cons_of_forall_mem hnot _ rfl]
      exact .cons hms hitems

/-- The values that a statement selects, with their names. -/
def Draft.selected (w : TermWriter) (d : Draft) : List (Fragment × String) :=
  d.outputs.map (fun p => (w.term p.value, p.name))
    ++ d.rowIdTables.map fun t => (w.column (rowIdRef t), rowIdNameOf t)

/-! ### Names -/

/-- **A fresh name is fresh**: there are more candidates than names in use. -/
theorem freshName_notMem (used : List String) (base : String) : freshName used base ∉ used := by
  let numbered := (List.range (used.length + 1)).map fun n => s!"{base}~{n + 1}"
  have hnodup : numbered.Nodup :=
    List.nodup_range.map fun i j h => Nat.succ_injective (eq_of_append_toString (base ++ "~") h)
  rw [freshName]
  cases hfind : (base :: numbered).find? fun name => !used.contains name with
  | some name => simpa using List.find?_some hfind
  | none =>
    have hsubset : numbered ⊆ used := by
      intro name hname
      simpa using List.find?_eq_none.mp hfind name (List.mem_cons_of_mem _ hname)
    have hlength := (hnodup.subperm hsubset).length_le
    rw [List.length_map, List.length_range] at hlength
    exact absurd hlength (Nat.not_succ_le_self _)

namespace Draft

/-- The names in a plan are those of the outputs, which differ; row numbers differ too. -/
structure IsNamed (d : Draft) : Prop where
  /-- The columns have the names of the outputs. -/
  columns : d.plan.columns.map PlanColumn.name = d.outputs.map Projected.name
  /-- These differ. -/
  outputs : (d.outputs.map Projected.name).Nodup
  /-- The names of row numbers differ. -/
  rowIds : d.plan.rowIds.Nodup

variable {s : Statement} {d : Draft}

theorem nodup_addRowId {p : Plan} (h : p.rowIds.Nodup) (name : String) :
    (p.addRowId name).2.rowIds.Nodup := by
  rw [Plan.addRowId]
  split
  · exact h
  · next hnone =>
    have hnot : name ∉ p.rowIds := List.idxOf?_eq_none_iff.mp hnone
    exact List.nodup_append.mpr ⟨h, List.nodup_singleton _, fun a ha b hb hab =>
      hnot (List.mem_singleton.mp hb ▸ hab ▸ ha)⟩

theorem IsNamed.addTable (h : IsNamed d) (m : MappedTable) : IsNamed (d.addTable s m) := by
  rw [Draft.addTable]
  simp only
  split
  · exact h
  · exact ⟨(congrArg _ (Plan.addRowId_columns _ _)).trans h.columns, h.outputs,
      nodup_addRowId h.rowIds _⟩

theorem IsNamed.addWitness (h : IsNamed d) (level : Nat) (t : TableId) :
    IsNamed (d.addWitness s level t) :=
  ⟨(congrArg _ (Plan.addRowId_columns _ _)).trans h.columns, h.outputs,
    nodup_addRowId h.rowIds _⟩

theorem IsNamed.addOutput (h : IsNamed d) (o : Output Cell) : IsNamed (d.addOutput s o) := by
  rw [Draft.addOutput]
  simp only
  have hwitnesses := List.foldlRecOn (witnessTables (d.lineage (enclosing d.places o.target).1)
    o.value) (Draft.addWitness s (enclosing d.places o.target).1) (motive := IsNamed) h
    fun _ hd t _ => hd.addWitness _ t
  generalize List.foldl _ d _ = d' at hwitnesses
  refine ⟨?_, ?_, hwitnesses.rowIds⟩
  · show (d'.plan.columns ++ [_]).map _ = (d'.outputs ++ [_]).map _
    rw [List.map_append, List.map_append, hwitnesses.columns]
    rfl
  · show ((d'.outputs ++ [_]).map _).Nodup
    rw [List.map_append]
    refine List.nodup_append.mpr ⟨hwitnesses.outputs, List.nodup_singleton _, ?_⟩
    intro a ha b hb hab
    rw [List.mem_singleton.mp hb] at hab
    exact freshName_notMem _ _ (hab ▸ ha)

/-- **The columns of a plan have different names, and so have its row numbers.** -/
theorem ofMapping_isNamed (s : Statement) (tables : List MappedTable) (os : List (Output Cell)) :
    IsNamed (ofMapping s tables os) := by
  have hroot : IsNamed (root s) := ⟨rfl, List.nodup_nil, List.nodup_singleton _⟩
  have htables : IsNamed (ofTables s tables) :=
    List.foldlRecOn _ _ (motive := IsNamed) hroot fun _ hd m _ => hd.addTable m
  exact List.foldlRecOn _ _ (motive := IsNamed) htables fun _ hd o _ => hd.addOutput o

end Draft

/-! ### Positions -/

namespace Plan

variable {p : Plan}

/-- The names of a plan's columns and row numbers. -/
def header (p : Plan) : List String :=
  p.columns.map PlanColumn.name ++ p.rowIds

theorem findColumn_of_mem {header : List String} {name : String} (h : name ∈ header) :
    findColumn header name = .ok (header.idxOf name) := by
  rw [Graph.findColumn_eq_ok_iff, List.idxOf?, List.findIdx?_eq_some_iff_findIdx_eq]
  exact ⟨List.idxOf_lt_length_of_mem h, rfl⟩

/-- Every column of the plan is found in its header. -/
theorem positions_header (p : Plan) :
    p.positions p.header = .ok ⟨p.columns.map fun c => p.header.idxOf c.name,
      p.rowIds.map p.header.idxOf⟩ := by
  have hcolumns : p.columns.mapM (fun c => findColumn p.header c.name) =
      .ok (p.columns.map fun c => p.header.idxOf c.name) := by
    rw [Result.mapM_eq_ok_iff, List.forall₂_map_right_iff, List.forall₂_same]
    exact fun c hc => findColumn_of_mem (List.mem_append_left _ (List.mem_map_of_mem hc))
  have hrowIds : p.rowIds.mapM (findColumn p.header) = .ok (p.rowIds.map p.header.idxOf) := by
    rw [Result.mapM_eq_ok_iff, List.forall₂_map_right_iff, List.forall₂_same]
    exact fun name hname => findColumn_of_mem (List.mem_append_right _ hname)
  rw [positions, hcolumns, hrowIds]
  rfl

/-- The places of different items are those that they stand at. -/
theorem map_idxOf_self {l : List String} (h : l.Nodup) : l.map l.idxOf = List.range l.length := by
  refine List.ext_getElem (by simp) fun i hi _ => ?_
  rw [List.length_map] at hi
  rw [List.getElem_map, h.idxOf_getElem i hi, List.getElem_range]

/-- A column stands before the row numbers, so the first match is its own item. -/
theorem idxOf_columns (h : (p.columns.map PlanColumn.name).Nodup) :
    p.columns.map (fun c => p.header.idxOf c.name) = List.range p.columns.length := by
  have hself := map_idxOf_self h
  rw [List.map_map, List.length_map] at hself
  rw [← hself]
  exact List.map_congr_left fun c hc => List.idxOf_append_of_mem (List.mem_map_of_mem hc)

/-- The row numbers are found at their own items just if no column is named like one of them. -/
theorem idxOf_rowIds_iff (h : p.rowIds.Nodup) :
    p.rowIds.map p.header.idxOf = List.range' p.columns.length p.rowIds.length ↔
      ∀ c ∈ p.columns, c.name ∉ p.rowIds := by
  constructor
  · intro heq c hc hname
    -- The name stands among the columns, where it is found first.
    have hlt : p.header.idxOf c.name < p.columns.length := by
      have hmem : c.name ∈ p.columns.map PlanColumn.name := List.mem_map_of_mem hc
      rw [header, List.idxOf_append_of_mem hmem, ← List.length_map PlanColumn.name]
      exact List.idxOf_lt_length_of_mem hmem
    have hrange : p.header.idxOf c.name ∈ List.range' p.columns.length p.rowIds.length :=
      heq ▸ List.mem_map_of_mem hname
    exact absurd (List.mem_range'_1.mp hrange).1 (Nat.not_le_of_lt hlt)
  · intro hdisjoint
    have hself := map_idxOf_self h
    have hshift : p.rowIds.map p.header.idxOf =
        (p.rowIds.map p.rowIds.idxOf).map (p.columns.length + ·) := by
      rw [List.map_map]
      refine List.map_congr_left fun name hname => ?_
      have hnot : name ∉ p.columns.map PlanColumn.name := by
        rintro hmem
        obtain ⟨c, hc, rfl⟩ := List.mem_map.mp hmem
        exact hdisjoint c hc hname
      rw [header, List.idxOf_append_of_notMem hnot, List.length_map]
      rfl
    rw [hshift, hself, List.range'_eq_map_range]

theorem nodup_header_iff (hcolumns : (p.columns.map PlanColumn.name).Nodup)
    (hrowIds : p.rowIds.Nodup) :
    p.header.Nodup ↔ ∀ c ∈ p.columns, c.name ∉ p.rowIds := by
  rw [header, List.nodup_append]
  constructor
  · exact fun ⟨_, _, hne⟩ c hc hname => hne _ (List.mem_map_of_mem hc) _ hname rfl
  · refine fun hdisjoint => ⟨hcolumns, hrowIds, fun name hname name' hname' heq => ?_⟩
    obtain ⟨c, hc, rfl⟩ := List.mem_map.mp hname
    exact hdisjoint c hc (heq ▸ hname')

end Plan

/-! ### Queries -/

namespace Assembler

variable {a : Assembler} {outputs : List (Output Cell)} {tables : List MappedTable}

/-- The clauses behind the rows. -/
theorem exists_nests_trailing (a : Assembler) (w : TermWriter) (outputs : List (Output Cell))
    (d : Draft) (keys : List ColumnRef) :
    ∃ ns, Nests (groupClause w outputs keys ++ (a.ordering w d
      ++ (a.engine.paging a.statement.skip? a.statement.take?).getD [])) ns := by
  have hgroup : ∃ ks, Nests (groupClause w outputs keys) ks := by
    obtain ⟨ks, hks, -⟩ := w.exists_nodes_columns keys
    unfold groupClause
    split
    · exact ⟨_, (nests_tokens [.group, .by_] rfl).append hks⟩
    · exact ⟨[], nests_nil⟩
  obtain ⟨ks, hks⟩ := hgroup
  obtain ⟨trailing, hordering, os, hos, -⟩ := isOutside_ordering (a := a) (w := w) (d := d)
    (R := fun _ => True) (fun _ _ _ _ => trivial) fun _ _ => trivial
  rw [hordering]
  exact ⟨_, hks.append ((nests_tokens [.order] rfl).append hos)⟩

theorem projection_eq {d : Draft} (h : d.plan.rowIds = d.rowIdTables.map rowIdNameOf)
    (w : TermWriter) :
    projection w d = [.token .select]
      ++ Fragment.joined ((d.selected w).map fun x => Fragment.named x.1 x.2) .comma := by
  have hzip : d.plan.rowIds.zip d.rowIdTables = d.rowIdTables.map fun t => (rowIdNameOf t, t) := by
    rw [h, List.zip_map_left, List.zip_eq_zipWith, List.zipWith_self, List.map_map]
    rfl
  rw [projection, hzip, List.map_map, Draft.selected, List.map_append, List.map_map, List.map_map]
  rfl

/-- A select list is written as the nodes of the selected values, separated by commas. -/
theorem exists_items {w : TermWriter} {d : Draft} (hne : d.selected w ≠ [])
    (hitems : ∀ x ∈ d.selected w, IsItem x.1) :
    ∃ ps, Nests (Fragment.joined ((d.selected w).map fun x => Fragment.named x.1 x.2) .comma) ps ∧
      List.Forall₂ (fun x item => NestedQuery.IsNamed x.1 x.2 item) (d.selected w)
        (ps.splitOnP (SqlNode.isToken .comma)) := by
  have hnamed : ∀ f ∈ (d.selected w).map fun x => Fragment.named x.1 x.2, IsItem f :=
    List.forall_mem_map.mpr fun x hx => (hitems x hx).named x.2
  obtain ⟨ps, hps, hsplit⟩ := exists_splitOnP_joined hnamed (by simpa using hne)
  refine ⟨ps, hps, ?_⟩
  rw [List.forall₂_map_left_iff] at hsplit
  obtain ⟨hlength, hnests⟩ := List.forall₂_iff_zip.mp hsplit
  refine List.forall₂_iff_zip.mpr ⟨hlength, fun {x item} hmem => ?_⟩
  obtain ⟨ns, hns, -⟩ := hitems x (List.of_mem_zip hmem).1
  exact ⟨ns, hns, Option.some.inj ((hnests hmem).nodes_eq.symm.trans (hns.named x.2).nodes_eq)⟩

/-- The select list has one item for each output and then one for each selected row number. -/
theorem exists_selectItems {assembled : Assembled} {n n' : Nat}
    (h : (a.assemble outputs tables).run n = .ok (assembled, n'))
    (hsingle : ∀ o ∈ outputs, o.value.isSingle = true) :
    let d := Draft.ofMapping a.statement tables outputs
    ∃ level w, assembled.sql.nodes = some level ∧
      List.Forall₂ (fun x item => NestedQuery.IsNamed x.1 x.2 item) (d.selected w)
        (selectItems level) := by
  obtain ⟨-, -, ms, source, -, hsource, hsql⟩ := assemble_run_eq_ok h
  obtain ⟨ss, hss, -⟩ := isAhead_rowSource hsource
  obtain ⟨hcollects, -⟩ := Draft.ofMapping_collects a.statement tables outputs
  have hvalues : ∀ p ∈ (Draft.ofMapping a.statement tables outputs).outputs,
      p.value.isSingle = true := by
    intro p hp
    obtain ⟨o, ho, hvalue⟩ := Draft.exists_of_mem_ofMapping hp
    exact hvalue ▸ hsingle o ho
  generalize Draft.ofMapping a.statement tables outputs = d at *
  generalize a.outerWriter ms = w at *
  obtain ⟨ts, hts⟩ := a.exists_nests_trailing w outputs d (a.keysOf outputs d)
  have hne : d.selected w ≠ [] := by
    obtain ⟨p, hp, -⟩ := hcollects.root
    have hmem := hcollects.lineage p hp _ (List.mem_of_mem_head? (hcollects.head p hp))
    exact List.append_ne_nil_of_right_ne_nil _
      (List.map_eq_nil_iff.not.mpr (List.ne_nil_of_mem hmem))
  have hitems : ∀ x ∈ d.selected w, IsItem x.1 := by
    intro x hx
    rcases List.mem_append.mp hx with hx | hx
    · obtain ⟨p, hp, rfl⟩ := List.mem_map.mp hx
      exact TermWriter.isItem_term p.value (hvalues p hp)
    · obtain ⟨t, -, rfl⟩ := List.mem_map.mp hx
      exact w.isItem_column (rowIdRef t)
  obtain ⟨ps, hps, hsplit⟩ := exists_items hne hitems
  have hprojection := projection_eq hcollects.rowIds w
  -- No clause starts inside the select list.
  have hclause : ∀ n ∈ ps, n.startsClause = false := by
    obtain ⟨f, hf, ns, hns, houtside⟩ := isOutside_projection (d := d) (w := w)
      (R := fun _ => True) (fun _ _ _ _ => trivial) fun _ _ => trivial
    obtain rfl : Fragment.joined _ .comma = f := List.append_cancel_left (hprojection.symm.trans hf)
    obtain rfl : ns = ps := Option.some.inj (hns.nodes_eq.symm.trans hps.nodes_eq)
    exact houtside.clause
  have hlevel := (((nests_tokens [.select] rfl).append hps).append
    ((nests_tokens [.from_] rfl).append hss)).append hts
  refine ⟨.chunk (.token .select) :: (ps ++ .chunk (.token .from_) :: (ss ++ ts)), w, ?_, ?_⟩
  · rw [hsql, hprojection]
    simp only [List.append_assoc, List.map_cons, List.map_nil] at hlevel ⊢
    exact hlevel.nodes_eq
  · have hfirst : ∀ n ∈ ([] : List SqlNode), n.isToken .select = false := List.forall_mem_nil _
    have hselect := clauseNodes_eq (.chunk (.token .from_) :: (ss ++ ts)) hfirst hclause rfl
    rw [List.nil_append] at hselect
    rwa [selectItems, hselect]

end Assembler

/-- The names of what a statement selects are those of its plan, in order. -/
theorem Draft.names_selected {s : Statement} {tables : List MappedTable}
    {outputs : List (Output Cell)} (w : TermWriter) :
    ((Draft.ofMapping s tables outputs).selected w).map Prod.snd =
      (Draft.ofMapping s tables outputs).plan.header := by
  rw [Plan.header, (ofMapping_isNamed s tables outputs).columns,
    (ofMapping_collects s tables outputs).1.rowIds, selected, List.map_append, List.map_map,
    List.map_map]
  rfl

/-- **What a statement selects.** The select list of an accepted query has one item for each column
of its plan, which holds the value of the output, and then one for each row number. Read against the
names of these items, column `i` of the plan is found at item `i`, whatever the mapping. The row
numbers are found at their own items, behind the columns, just if no column is named like one of
them; and just then all names differ. -/
theorem positions_of_compile_iff {settings : Settings} {q : QuerySpec} {mapping : Expr}
    {query : Query} {n n' : Nat} (h : (q.compile settings mapping).run n = .ok (query, n')) :
    ∃ st w level positions, q.stages settings.naming mapping = .ok st ∧
      query.plan = st.draft.plan ∧ query.sql.nodes = some level ∧
      List.Forall₂ (fun x item => IsNamed x.1 x.2 item) (st.draft.selected w)
        (selectItems level) ∧
      (selectItems level).map itemName? = query.plan.header.map some ∧
      query.plan.positions query.plan.header = .ok positions ∧
      positions.columns = List.range query.plan.columns.length ∧
      (positions.rowIds = List.range' query.plan.columns.length query.plan.rowIds.length ↔
        ∀ c ∈ query.plan.columns, c.name ∉ query.plan.rowIds) ∧
      (query.plan.header.Nodup ↔ ∀ c ∈ query.plan.columns, c.name ∉ query.plan.rowIds) := by
  obtain ⟨st, assembled, hst, hassembled, rfl⟩ := QuerySpec.compile_run_eq_ok_iff.mp h
  have hplan : assembled.plan = st.draft.plan := (Assembler.assemble_run_eq_ok hassembled).2.1
  obtain ⟨level, w, hlevel, hitems⟩ :=
    Assembler.exists_selectItems hassembled (Stages.isSingle_of_stages hst)
  have hnamed : st.draft.IsNamed :=
    Draft.ofMapping_isNamed st.statement st.compiled.tables st.outputs
  have hcolumns : (assembled.plan.columns.map PlanColumn.name).Nodup :=
    hplan ▸ hnamed.columns ▸ hnamed.outputs
  have hrowIds : assembled.plan.rowIds.Nodup := hplan ▸ hnamed.rowIds
  -- The items have the names of what is selected, in its order.
  have hnames : (selectItems level).map itemName? = assembled.plan.header.map some := by
    have hselected : (st.draft.selected w).map Prod.snd = st.draft.plan.header :=
      Draft.names_selected w
    rw [hplan, ← hselected, List.map_map, eq_comm, ← List.forall₂_eq_eq_eq,
      List.forall₂_map_left_iff, List.forall₂_map_right_iff]
    exact hitems.imp fun x item hx => hx.itemName?_eq.symm
  exact ⟨st, w, level, _, hst, hplan, hlevel, hitems, hnames, assembled.plan.positions_header,
    Plan.idxOf_columns hcolumns, Plan.idxOf_rowIds_iff hrowIds,
    Plan.nodup_header_iff hcolumns hrowIds⟩

/-- Each person's number and name, under members that together are named like the row number of the
people. -/
def numberedPeople : Expr :=
  .object [("t0", .object [("##rowid", shapeField "person" "id")]),
    ("name", shapeField "person" "name")]

/-- The row number of the people is read from the first column. -/
theorem positions_of_compile_iff_numberedPeople :
    ∃ query n' positions, (people.compile {} numberedPeople).run 0 = .ok (query, n') ∧
      query.plan.columns.map PlanColumn.name = ["t0.##rowid", "name"] ∧
      query.plan.rowIds = ["t0.##rowid"] ∧
      query.plan.positions query.plan.header = .ok positions ∧ positions.columns = [0, 1] ∧
      positions.rowIds ≠ [2] ∧ ¬ query.plan.header.Nodup := by
  have hcompile : ((people.compile {} numberedPeople).run 0).any (fun x =>
      x.1.plan.columns.map PlanColumn.name == ["t0.##rowid", "name"] &&
      x.1.plan.rowIds == ["t0.##rowid"]) = true := by decide +kernel
  obtain ⟨⟨query, n'⟩, hquery, hnames⟩ := Result.any_eq_true_iff.mp hcompile
  rw [Bool.and_eq_true, beq_iff_eq, beq_iff_eq] at hnames
  obtain ⟨hcolumnNames, hrowIdNames⟩ : query.plan.columns.map PlanColumn.name =
    ["t0.##rowid", "name"] ∧ query.plan.rowIds = ["t0.##rowid"] := hnames
  obtain ⟨-, -, -, positions, -, -, -, -, -, hpositions, hcolumns, hrowIds, hnodup⟩ :=
    positions_of_compile_iff hquery
  have hlength : query.plan.columns.length = 2 := by
    rw [← List.length_map PlanColumn.name, hcolumnNames]
    rfl
  have hsame : ¬ ∀ c ∈ query.plan.columns, c.name ∉ query.plan.rowIds := by
    intro hdisjoint
    have hmem : "t0.##rowid" ∈ query.plan.columns.map PlanColumn.name := by simp [hcolumnNames]
    obtain ⟨c, hc, hname⟩ := List.mem_map.mp hmem
    exact hdisjoint c hc (by simp [hname, hrowIdNames])
  rw [hlength] at hcolumns
  have hnot := hrowIds.not.mpr hsame
  rw [hlength, hrowIdNames] at hnot
  exact ⟨query, n', positions, hquery, hcolumnNames, hrowIdNames, hpositions, hcolumns, hnot,
    hnodup.not.mpr hsame⟩

end NestedQuery
