import NestedQuery.Proofs.Select.Embedding
import NestedQuery.Proofs.Sql.Renumbering

/-!
# Terms under other numbers of tables

A writer that has the same engine, the same list parameters and the same markers, all in a larger
statement, writes a term there with other numbers of tables (`TermWriter.Renumbers.term`). The
names of its columns may be any, since they are the query's own.
-/

namespace NestedQuery

/-! ### Named columns -/

/-- The column goes by the name that its table has in the statement, and has a name of the
query's own. -/
structure ColumnRef.IsNamed (own : List String) (c : ColumnRef) : Prop where
  tableAlias_eq : c.tableAlias = NestedQuery.tableAlias c.table
  isOwn : IsOwnName own c.column

/-- All columns of the term do. -/
def Term.IsNamed (own : List String) (t : Term) : Prop :=
  ∀ a ∈ t.leaves, ∀ c ∈ a.column?, c.IsNamed own

section

variable {f : Embedding} {own : List String}

theorem isNamed_rowIdRef (own : List String) (t : TableId) : (rowIdRef t).IsNamed own :=
  ⟨rfl, .inr (show rowIdColumn.toList.head? ≠ some 't' by decide)⟩

theorem isOwnName_derivedTable (own : List String) : IsOwnName own derivedTable :=
  .inr (by decide)

/-- Different columns stay different. -/
theorem ColumnRef.embed_injective {c c' : ColumnRef}
    (hc : c.tableAlias = NestedQuery.tableAlias c.table)
    (hc' : c'.tableAlias = NestedQuery.tableAlias c'.table) (h : c.embed f = c'.embed f) :
    c = c' := by
  obtain ⟨t, a, n⟩ := c
  obtain ⟨t', a', n'⟩ := c'
  obtain ⟨htable, -, hcolumn⟩ := ColumnRef.mk.inj h
  obtain rfl : t = t' := f.table_inj.mp htable
  obtain rfl : n = n' := hcolumn
  obtain rfl : a = a' := hc.trans hc'.symm
  rfl

theorem derivedName_renumbers {c : ColumnRef} (hc : c.tableAlias = tableAlias c.table) :
    NameRenumbers f own (derivedName c) (derivedName (c.embed f)) := by
  rw [derivedName, hc]
  exact .member c.table c.column

theorem rowIdName_renumbers (t : TableId) :
    NameRenumbers f own (rowIdNameOf t) (rowIdNameOf (f.table t)) :=
  .member t rowIdColumn

/-! ### What a term reads -/

namespace Term

theorem insertTable_map (f : Embedding) (t : TableId) (ts : List TableId) :
    insertTable (f.table t) (ts.map f.table) = (insertTable t ts).map f.table := by
  induction ts with
  | nil => rfl
  | cons u us ih =>
    rw [List.map_cons, insertTable, insertTable]
    simp only [f.strictMono.lt_iff_lt, f.table_inj]
    rw [ih, apply_ite (List.map f.table), apply_ite (List.map f.table)]
    rfl

theorem readTables_embed (f : Embedding) (t : Term) :
    readTables (t.embed f) = (readTables t).map f.table := by
  rw [readTables, columns_embed, readTables]
  induction columns t with
  | nil => rfl
  | cons c cs ih =>
    rw [List.map_cons, List.foldr_cons, List.foldr_cons, ih]
    exact insertTable_map f c.table _

theorem isRowId_embed (f : Embedding) (t : Term) : isRowId (t.embed f) = isRowId t := by
  cases t with
  | leaf a => cases a <;> rfl
  | _ => rfl

theorem isComposite_embed (f : Embedding) (t : Term) :
    isComposite (t.embed f) = isComposite t := by
  cases t with
  | wrap op operand => cases op <;> rfl
  | _ => rfl

theorem rowColumns_embed (f : Embedding) (t : Term) :
    Assembler.rowColumns (t.embed f) = (Assembler.rowColumns t).map (ColumnRef.embed f) := by
  rw [Assembler.rowColumns, visit_embed, List.filterMap_map, Assembler.rowColumns,
    List.map_filterMap]
  refine List.filterMap_congr fun x _ => ?_
  obtain ⟨a, beneath⟩ := x
  cases beneath <;> cases a <;> rfl

end Term

/-- The marker in the larger statement. -/
def Marker.embed (f : Embedding) (m : Marker) : Marker :=
  ⟨m.name, m.tables.map f.table⟩

/-! ### Writers -/

/-- The writer `w'` writes in the larger statement what `w` writes. -/
structure TermWriter.Renumbers (f : Embedding) (own : List String) (w w' : TermWriter) : Prop where
  engine : w'.engine = w.engine
  isExpanded : ∀ id, w'.pool.isExpanded (f.param id) = w.pool.isExpanded id
  markers : w'.markers? = w.markers?.map (List.map (Marker.embed f))
  /-- The columns of markers have no numbers of tables. -/
  names : ∀ m ∈ w.markers?.getD [], IsOwnName own m.name

namespace TermWriter.Renumbers

variable {w w' : TermWriter}

theorem column (h : w.Renumbers f own w') {c : ColumnRef} (hc : c.IsNamed own) :
    Fragment.Renumbers f own (w.column c) (w'.column (c.embed f)) := by
  unfold TermWriter.column
  rw [h.markers]
  cases w.markers? with
  | none =>
    have htable : NameRenumbers f own c.tableAlias (tableAlias (f.table c.table)) :=
      hc.tableAlias_eq ▸ .table c.table
    exact .qualified htable (.same hc.isOwn)
  | some ms =>
    exact .qualified (.same (isOwnName_derivedTable own)) (derivedName_renumbers hc.tableAlias_eq)

theorem leaf (h : w.Renumbers f own w') {a : Cell} (ha : ∀ c ∈ a.column?, c.IsNamed own) :
    Fragment.Renumbers f own (w.leaf a) (w'.leaf (a.embed f)) := by
  cases a with
  | param id => exact .cons (.param id) .nil
  | column c r function type =>
    have hcolumn := h.column (ha c rfl)
    cases function with
    | none => exact hcolumn
    | some function => exact hcolumn.call function.sqlName

theorem asOperand (t : Term) {g g' : Fragment} (hg : Fragment.Renumbers f own g g') :
    Fragment.Renumbers f own (TermWriter.asOperand t g) (TermWriter.asOperand (t.embed f) g') := by
  unfold TermWriter.asOperand
  rw [Term.isComposite_embed]
  split
  · exact hg.parens
  · exact hg

theorem membership (h : w.Renumbers f own w') (list : Term) {g g' e e' : Fragment}
    (hg : Fragment.Renumbers f own g g') (he : Fragment.Renumbers f own e e') :
    Fragment.Renumbers f own (w.membership g list e) (w'.membership g' (list.embed f) e') := by
  have hin : Fragment.Renumbers f own (g ++ [.token .in_] ++ e.parens)
      (g' ++ [.token .in_] ++ e'.parens) := (hg.append (.refl rfl)).append he.parens
  cases list with
  | leaf a =>
    cases a with
    | param id =>
      show Fragment.Renumbers f own (if w.pool.isExpanded id then _ else _)
        (if w'.pool.isExpanded (f.param id) then _ else _)
      rw [h.isExpanded]
      split
      · exact .cons (.inList id hg) .nil
      · exact hin
    | column c r function type => exact hin
  | _ => exact hin

theorem engineAggregate (e : Engine) (function : Aggregate) (distinct : Bool) {g g' : Fragment}
    (hg : Fragment.Renumbers f own g g') :
    Fragment.Renumbers f own (e.aggregate function g distinct)
      (e.aggregate function g' distinct) := by
  have hoperand : Fragment.Renumbers f own (if distinct then .token .distinct :: g else g)
      (if distinct then .token .distinct :: g' else g') := by
    split
    · exact hg.token .distinct
    · exact hg
  have hcall := hoperand.call function.sqlName
  unfold Engine.aggregate
  dsimp only
  split
  · exact (hcall.append (.refl rfl)).call "CAST"
  · exact (hcall.append (.refl rfl)).call "CAST"
  · exact hcall

theorem marked {m : Marker} (hm : IsOwnName own m.name) {g g' : Fragment}
    (hg : Fragment.Renumbers f own g g') :
    Fragment.Renumbers f own (TermWriter.marked m g) (TermWriter.marked (m.embed f) g') := by
  have hcolumn : Fragment.Renumbers f own (Fragment.qualified derivedTable m.name)
      (Fragment.qualified derivedTable m.name) :=
    .qualified (.same (isOwnName_derivedTable own)) (.same hm)
  have hcase := Fragment.Renumbers.append
    (.refl (g := [.token .case, .token .when]) rfl) hcolumn
  exact ((hcase.append (.refl rfl)).append hg).append (.refl rfl)

theorem marker?_eq (h : w.Renumbers f own w') (t : Term) :
    w'.marker? (t.embed f) = (w.marker? t).map (Marker.embed f) := by
  have hmarkers : w'.markers?.getD [] = (w.markers?.getD []).map (Marker.embed f) := by
    rw [h.markers]
    cases w.markers? <;> rfl
  have hinj : Function.Injective (List.map f.table) :=
    List.map_injective_iff.mpr f.strictMono.injective
  rw [TermWriter.marker?, hmarkers, List.find?_map, TermWriter.marker?, Term.readTables_embed]
  exact congrArg (fun p => Option.map _ (List.find? p _))
    (funext fun m => beq_of_injective hinj m.tables (Term.readTables t))

theorem aggregate (h : w.Renumbers f own w') (function : Aggregate) (operand : Term)
    {g g' : Fragment} (hg : Fragment.Renumbers f own g g') :
    Fragment.Renumbers f own (w.aggregate function operand g)
      (w'.aggregate function (operand.embed f) g') := by
  have hsome : w'.markers?.isSome = w.markers?.isSome := by
    rw [h.markers, Option.isSome_map]
  unfold TermWriter.aggregate
  rw [Term.isRowId_embed, hsome, h.marker?_eq, h.engine]
  split
  · exact engineAggregate w.engine .count true hg
  · split
    · cases hm : w.marker? operand with
      | none => exact engineAggregate w.engine function false hg
      | some m =>
        have hname := h.names m (List.mem_of_find?_eq_some hm)
        exact engineAggregate w.engine function false (marked hname hg)
    · exact engineAggregate w.engine function false hg

mutual

/-- **A term in the larger statement** is written with the numbers of its tables there. -/
theorem term (h : w.Renumbers f own w') : (t : Term) → t.IsNamed own →
    Fragment.Renumbers f own (w.term t) (w'.term (t.embed f))
  | .leaf a, ht => by
    show Fragment.Renumbers f own _ (w'.term (.leaf _))
    rw [TermWriter.term, TermWriter.term]
    exact h.leaf (ht a (List.mem_singleton_self a))
  | .binary op left right, ht => by
    rw [Term.IsNamed, Accumulator.leaves_binary, List.forall_mem_append] at ht
    have hl := h.term left ht.1
    have hr := h.term right ht.2
    show Fragment.Renumbers f own _
      (w'.term (.binary op (Term.embed f left) (Term.embed f right)))
    cases op with
    | isIn =>
      rw [TermWriter.term, TermWriter.term]
      exact h.membership right (asOperand left hl) hr
    | comma =>
      rw [TermWriter.term, TermWriter.term]
      exact (hl.append (.refl rfl)).append hr
    | _ => exact ((asOperand left hl).append (.refl rfl)).append (asOperand right hr)
  | .wrap op operand, ht => by
    rw [Term.IsNamed, Accumulator.leaves_wrap] at ht
    have hoperand := h.term operand ht
    -- The text is put together from the parts in the same way in both statements.
    show Fragment.Renumbers f own _ (w'.term (.wrap op (Term.embed f operand)))
    cases op with
    | not =>
      rw [TermWriter.term, TermWriter.term, h.engine]
      exact (asOperand operand hoperand).token .not
    | negate =>
      rw [TermWriter.term, TermWriter.term, h.engine]
      exact (asOperand operand hoperand).token .minus
    | aggregate function =>
      rw [TermWriter.term, TermWriter.term]
      exact h.aggregate function operand hoperand
    | apply function =>
      rw [TermWriter.term, TermWriter.term, h.engine]
      exact hoperand.call function.sqlName
  | .cases bs otherwise, ht => by
    rw [Term.IsNamed, Accumulator.leaves_cases, List.forall_mem_append] at ht
    have hbranches := h.branches bs ht.1
    have hotherwise := h.term otherwise ht.2
    show Fragment.Renumbers f own _
      (w'.term (.cases (Accumulator.mapBranches (Cell.embed f) bs) (Term.embed f otherwise)))
    rw [TermWriter.term, TermWriter.term]
    exact (((hbranches.token .case).append (.refl rfl)).append hotherwise).append (.refl rfl)
  | .casesOf subject bs otherwise, ht => by
    rw [Term.IsNamed, Accumulator.leaves_casesOf, List.forall_mem_append,
      List.forall_mem_append] at ht
    have hsubject := asOperand subject (h.term subject ht.1)
    have hbranches := h.branches bs ht.2.1
    have hotherwise := h.term otherwise ht.2.2
    show Fragment.Renumbers f own _ (w'.term (.casesOf (Term.embed f subject)
      (Accumulator.mapBranches (Cell.embed f) bs) (Term.embed f otherwise)))
    rw [TermWriter.term, TermWriter.term]
    exact ((((hsubject.token .case).append hbranches).append (.refl rfl)).append
      hotherwise).append (.refl rfl)

theorem branches (h : w.Renumbers f own w') : (bs : List (Term × Term)) →
    (∀ a ∈ (Accumulator.visitBranches false bs).map Prod.fst, ∀ c ∈ a.column?, c.IsNamed own) →
      Fragment.Renumbers f own (w.branches bs)
        (w'.branches (Accumulator.mapBranches (Cell.embed f) bs))
  | [], _ => by
    rw [Accumulator.mapBranches, TermWriter.branches, TermWriter.branches]
    exact .nil
  | (test, value) :: rest, ht => by
    rw [Accumulator.visitBranches, List.map_append, List.map_append, List.forall_mem_append,
      List.forall_mem_append] at ht
    have htest := h.term test ht.1
    have hvalue := h.term value ht.2.1
    have hrest := h.branches rest ht.2.2
    rw [Accumulator.mapBranches, TermWriter.branches, TermWriter.branches]
    exact (((htest.token .when).append (.refl rfl)).append hvalue).append hrest

end

end TermWriter.Renumbers

end

/-! ### Computations that go alike -/

/-- From any number of names drawn before, both fail, or both succeed with related results after
drawing as many names. -/
def Assembly.Matches {α β : Type} (R : α → β → Prop) (x : Assembly α) (y : Assembly β) : Prop :=
  ∀ n, (x.run n).Matches (fun p q => R p.1 q.1 ∧ q.2 = p.2) (y.run n)

namespace Assembly.Matches

variable {α β γ δ : Type} {R : α → β → Prop} {S : γ → δ → Prop}

theorem pure {a : α} {b : β} (h : R a b) :
    Matches R (Pure.pure a : Assembly α) (Pure.pure b : Assembly β) :=
  fun _ => ⟨h, rfl⟩

theorem throw (e e' : Error) :
    Matches R (MonadExcept.throw e : Assembly α) (MonadExcept.throw e' : Assembly β) :=
  fun _ => trivial

theorem bind {x : Assembly α} {y : Assembly β} (h : Matches R x y) {f : α → Assembly γ}
    {g : β → Assembly δ} (hfg : ∀ a b, R a b → Matches S (f a) (g b)) :
    Matches S (x >>= f) (y >>= g) := by
  intro n
  rw [Assembly.run_bind, Assembly.run_bind]
  refine (h n).bind ?_
  rintro ⟨a, _⟩ ⟨b, _⟩ ⟨hab, rfl⟩
  exact hfg a b hab _

theorem lift {x : Result α} {y : Result β} (h : x.Matches R y) :
    Matches R (liftM x : Assembly α) (liftM y : Assembly β) := by
  intro n
  rw [Assembly.run_lift, Assembly.run_lift]
  exact h.bind fun _ _ hab => ⟨hab, rfl⟩

theorem draw {x : TempIds α} {y : TempIds β}
    (h : ∀ n, R (x.run n).1 (y.run n).1 ∧ (y.run n).2 = (x.run n).2) :
    Matches R (Assembler.draw x) (Assembler.draw y) :=
  h

end Assembly.Matches

/-! ### Tables -/

/-- The names of columns that numbering rows needs. -/
def RowIds.names : RowIds → List String
  | .window => []
  | .native column => [column]
  | .emulated key => [key]

section

variable {f : Embedding} {own : List String}

theorem isOwnName_append {own : List String} {start : String} {c : Char}
    (hstart : start.toList.head? = some c) (hc : c ≠ 't') (rest : String) :
    IsOwnName own (start ++ rest) := by
  refine .inr ?_
  rw [String.toList_append, List.head?_append, hstart]
  exact fun h => hc (Option.some.inj h)

theorem rowNumbers_renumbers (e : Engine) {table : String} (htable : IsOwnName own table)
    (hnames : ∀ name ∈ e.rowIds.names, IsOwnName own name) (n : Nat) :
    Fragment.Renumbers f own ((e.rowNumbers table).run n).1 ((e.rowNumbers table).run n).1 := by
  unfold Engine.rowNumbers
  cases hrowIds : e.rowIds with
  | window => exact .refl rfl
  | native column =>
    exact .ident (.same (hnames column (by rw [hrowIds]; exact List.mem_singleton_self column)))
  | emulated key =>
    have hkey : IsOwnName own key :=
      hnames key (by rw [hrowIds]; exact List.mem_singleton_self key)
    have htemp : IsOwnName own s!"rs_tmp_{n + 1}" := isOwnName_append (c := 'r') rfl (by decide) _
    have hcount : Fragment.Renumbers f own ([.token .select] ++ Fragment.call "COUNT" [.token .star]
        ++ [.token .from_]) ([.token .select] ++ Fragment.call "COUNT" [.token .star]
        ++ [.token .from_]) := .refl rfl
    have hfrom := hcount.append
      (Fragment.Renumbers.named (.ident (.same htable)) (.same htemp))
    have hwhere := (hfrom.append (.refl (g := [.token .where_]) rfl)).append
      (.qualified (.same htemp) (.same hkey))
    exact ((hwhere.append (.refl (g := [.raw "<="]) rfl)).append
      (.qualified (.same htable) (.same hkey))).parens

/-- A table under another number draws the same names. -/
theorem tableSource_matches (e : Engine) {table : String} (htable : IsOwnName own table)
    (hnames : ∀ name ∈ e.rowIds.names, IsOwnName own name) (t : TableId) :
    Assembly.Matches (Fragment.Renumbers f own)
      (Assembler.draw (e.tableSource table (tableAlias t)))
      (Assembler.draw (e.tableSource table (tableAlias (f.table t)))) := by
  refine .draw fun n => ⟨?_, rfl⟩
  have hnumbers : Fragment.Renumbers f own _ _ := (rowNumbers_renumbers e htable hnames n).named
    (.same (isNamed_rowIdRef own t).isOwn)
  have htableRows : Fragment.Renumbers f own
      [.token .comma, .token .star, .token .from_, .ident table]
      [.token .comma, .token .star, .token .from_, .ident table] :=
    .append (g := [.token .comma, .token .star, .token .from_]) (.refl rfl) (.ident (.same htable))
  exact ((hnumbers.token .select).append htableRows).parens.named (.table t)

end

end NestedQuery
