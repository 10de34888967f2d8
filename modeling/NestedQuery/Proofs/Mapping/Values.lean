import NestedQuery.Proofs.Mapping.Steps

/-!
# What compiled values keep

The compiler builds values by a few constructions: parameters, member chains, operators, functions
and cases over operands, and aggregates over operands whose leaves are folded into a table. A
property that all of these keep (`ClosedValues`) holds of every value that is compiled, and the
compiled tables are tables of the statement (`compileMapping_keeps`, `compileCondition_keeps`).
-/

namespace NestedQuery

/-- The lists of membership tests: parameters, with commas between. -/
inductive Accumulator.IsParameterList : Accumulator Symbol → Prop
  /-- A parameter, which may be a list. -/
  | param (id : ParamId) : IsParameterList (.leaf (.param id))
  /-- One more item. -/
  | comma {list : Accumulator Symbol} (id : ParamId) :
    IsParameterList list → IsParameterList (.binary .comma list (.leaf (.param id)))

/-- A property of values that every construction of the compiler keeps. -/
structure ClosedValues (s : Statement) (V : Accumulator Symbol → Prop) : Prop where
  param (id : ParamId) : V (.leaf (.param id))
  chain (root : Root) (path : List String) : V (chainLeaf root path)
  binary {op : BinaryOp} (hin : op ≠ .isIn) (hcomma : op ≠ .comma)
    {left right : Accumulator Symbol} : V left → V right → V (.binary op left right)
  isIn {subject list : Accumulator Symbol} :
    V subject → list.IsParameterList → V (.binary .isIn subject list)
  wrap {op : Wrapper} {v : Accumulator Symbol} : op.isAggregate = false → V v → V (.wrap op v)
  function {root : Root} {path : List String} {into : Option TableId} (f : Function) :
    V (.leaf (.column root path into none)) → V (.leaf (.column root path into (some f)))
  cases {branches : List (Accumulator Symbol × Accumulator Symbol)}
    {otherwise : Accumulator Symbol} :
    (∀ b ∈ branches, V b.1 ∧ V b.2) → V otherwise → V (.cases branches otherwise)
  casesOf {subject : Accumulator Symbol}
    {branches : List (Accumulator Symbol × Accumulator Symbol)} {otherwise : Accumulator Symbol} :
    V subject → (∀ b ∈ branches, V b.1 ∧ V b.2) → V otherwise →
      V (.casesOf subject branches otherwise)
  aggregate (f : Aggregate) {v : Accumulator Symbol} {t : TableId} :
    V v → t ∈ s.tableIds → V (.wrap (.aggregate f) (v.map (Symbol.foldedInto t)))

/-! ### Tables -/

theorem Statement.mem_tableIds {s : Statement} {id : TableId} :
    id ∈ s.tableIds ↔ id < s.sources.length :=
  List.mem_range

theorem Statement.zero_mem_tableIds (s : Statement) : 0 ∈ s.tableIds :=
  mem_tableIds.mpr (Nat.succ_pos _)

/-- The table that a path leads to or into. -/
def Lookup.table? : Lookup → Option TableId
  | .shape => none
  | .table id _ | .column id .. | .rowId id _ => some id

theorem Statement.lookupIn_table? {id : TableId} {table : Table} {path : List String} {l : Lookup}
    (h : lookupIn id table path = some l) : l.table? = some id := by
  unfold lookupIn at h
  split at h
  · rw [← Option.some.inj h]
    rfl
  · split at h
    · rw [← Option.some.inj h]
      rfl
    · obtain ⟨field, -, rfl⟩ := Option.map_eq_some_iff.mp h
      rfl
  · exact absurd h (by simp)

theorem Statement.memberTable?_mem_tableIds {s : Statement} {name : String} {id : TableId}
    (h : s.memberTable? name = some id) : id ∈ s.tableIds := by
  unfold memberTable? at h
  split at h
  · exact absurd h (by simp)
  · exact mem_tableIds.mpr (List.findIdx?_eq_some_iff_findIdx_eq.mp h).1

/-- What a path stands for belongs to a table of the statement. -/
theorem Statement.lookup?_table? {s : Statement} {path : List String} {l : Lookup}
    (h : s.lookup? path = some l) {id : TableId} (hid : l.table? = some id) :
    id ∈ s.tableIds := by
  unfold lookup? at h
  split at h
  · split at h
    · rw [← Option.some.inj h] at hid
      rw [← Option.some.inj hid]
      exact s.zero_mem_tableIds
    · rw [← Option.some.inj h] at hid
      exact absurd hid (by simp [Lookup.table?])
  · split at h
    · rename_i t hmember
      rw [lookupIn_table? h, Option.some.injEq] at hid
      rw [← hid]
      exact memberTable?_mem_tableIds hmember
    · split at h
      · rw [lookupIn_table? h, Option.some.injEq] at hid
        rw [← hid]
        exact s.zero_mem_tableIds
      · exact absurd h (by simp)

namespace Compile

theorem lookup_yields_table {s : Statement} {root : Root} {path : List String} {c c' : Collected}
    {id : TableId} {table : Table} (h : Yields (lookup s root path) c (some (.table id table)) c') :
    id ∈ s.tableIds := by
  obtain ⟨⟨path', -, h⟩, -⟩ := yields_lookup_iff.mp h
  exact Statement.lookup?_table? h rfl

end Compile

/-! ### Results -/

/-- All values of a result have the property, and its tables are tables of the statement. -/
structure Compiled.Keeps (s : Statement) (V : Accumulator Symbol → Prop) (c : Compiled) : Prop where
  values : ∀ o ∈ c.outputs, V o.value
  tables : ∀ m ∈ c.tables, m.table ∈ s.tableIds

/-- The same for an operand. -/
structure Operand.Keeps (s : Statement) (V : Accumulator Symbol → Prop) (o : Operand) : Prop where
  value : V o.value
  tables : ∀ m ∈ o.tables, m.table ∈ s.tableIds

/-- The same for the branches of a case. -/
structure CompiledBranches.Keeps (s : Statement) (V : Accumulator Symbol → Prop)
    (bs : CompiledBranches) : Prop where
  branches : ∀ b ∈ bs.branches, V b.1 ∧ V b.2
  tables : ∀ m ∈ bs.tables, m.table ∈ s.tableIds

section

variable {s : Statement} {V : Accumulator Symbol → Prop}

theorem forall_mem_append_tables {ms ns : List MappedTable} (hm : ∀ m ∈ ms, m.table ∈ s.tableIds)
    (hn : ∀ m ∈ ns, m.table ∈ s.tableIds) : ∀ m ∈ ms ++ ns, m.table ∈ s.tableIds :=
  List.forall_mem_append.mpr ⟨hm, hn⟩

namespace Compiled

theorem keeps_empty : Keeps s V {} :=
  ⟨fun _ ho => absurd ho List.not_mem_nil, fun _ hm => absurd hm List.not_mem_nil⟩

theorem keeps_ofValue {v : Accumulator Symbol} {type : ValueType} {tables : List MappedTable}
    (hv : V v) (ht : ∀ m ∈ tables, m.table ∈ s.tableIds) : Keeps s V (ofValue v type tables) :=
  ⟨fun o ho => by rw [List.mem_singleton.mp ho]; exact hv, ht⟩

theorem keeps_ofLeaf {v : Accumulator Symbol} {type : ValueType} (hv : V v) :
    Keeps s V (ofValue v type) :=
  keeps_ofValue hv fun _ hm => absurd hm List.not_mem_nil

theorem Keeps.append {c d : Compiled} (hc : Keeps s V c) (hd : Keeps s V d) :
    Keeps s V (c ++ d) :=
  ⟨List.forall_mem_append.mpr ⟨hc.values, hd.values⟩,
    forall_mem_append_tables hc.tables hd.tables⟩

theorem Keeps.under {c : Compiled} (hc : Keeps s V c) (step : Segment) :
    Keeps s V (c.under step) := by
  refine ⟨fun o ho => ?_, fun m hm => ?_⟩
  · obtain ⟨o', ho', rfl⟩ := List.mem_map.mp ho
    exact hc.values o' ho'
  · obtain ⟨m', hm', rfl⟩ := List.mem_map.mp hm
    exact hc.tables m' hm'

theorem Keeps.member {c : Compiled} (hc : Keeps s V c) (step : Segment) :
    Keeps s V (c.member step) := by
  refine ⟨fun o ho => ?_, fun m hm => ?_⟩
  · obtain ⟨o', ho', h⟩ := List.mem_filterMap.mp ho
    obtain ⟨_, -, rfl⟩ := Option.map_eq_some_iff.mp h
    exact hc.values o' ho'
  · obtain ⟨m', hm', h⟩ := List.mem_filterMap.mp hm
    obtain ⟨_, -, rfl⟩ := Option.map_eq_some_iff.mp h
    exact hc.tables m' hm'

/-- More tables of the statement do no harm. -/
theorem Keeps.withTables {c : Compiled} (hc : Keeps s V c) {tables : List MappedTable}
    (ht : ∀ m ∈ tables, m.table ∈ s.tableIds) : Keeps s V { c with tables := tables } :=
  ⟨hc.values, ht⟩

theorem Keeps.of_value?_eq_some {c : Compiled} (hc : Keeps s V c) {o : Output Symbol}
    (h : c.value? = some o) : V o.value :=
  hc.values o (mem_outputs_of_value? h)

end Compiled

/-! ### Chains and expansion -/

theorem whole?_yields_table {c : Compiled} {st st' : Collected} {id : TableId} {table : Table}
    {chain : Root × List String}
    (h : Yields (whole? s c) st (some (.table id table, chain)) st') : id ∈ s.tableIds := by
  obtain ⟨-, path', -, hlookup⟩ := (whole?_yields h).2 _ _ _ rfl
  exact Statement.lookup?_table? hlookup rfl

variable (hV : ClosedValues s V)

include hV

theorem compileChain_keeps {root : Root} {path : List String} {tables : List MappedTable}
    (ht : ∀ m ∈ tables, m.table ∈ s.tableIds) {r : Compiled} {st st' : Collected}
    (h : Yields (compileChain s root path tables) st r st') : r.Keeps s V := by
  obtain ⟨-, type, rfl⟩ := compileChain_yields h
  exact Compiled.keeps_ofValue (hV.chain root path) ht

theorem compileMember_keeps {e base : Expr} {name : String} {c r : Compiled}
    {st st' : Collected} (hc : c.Keeps s V)
    (h : Yields (compileMember s e base name c) st r st') : r.Keeps s V := by
  unfold compileMember at h
  split at h
  · exact compileChain_keeps hV hc.tables h
  · simp only at h
    split at h
    · exact absurd h not_yields_throw
    · rw [← (yields_pure_iff.mp h).1]
      exact hc.member _

omit hV in
theorem objectOf_keeps {value : String → Compile Compiled}
    (hvalue : ∀ name {r st st'}, Yields (value name) st r st' → r.Keeps s V)
    {names : List String} {r : Compiled} {st st' : Collected}
    (h : Yields (objectOf value names) st r st') : r.Keeps s V := by
  induction names generalizing r st st' with
  | nil =>
    rw [← (yields_pure_iff.mp h).1]
    exact Compiled.keeps_empty
  | cons name names ih =>
    rw [objectOf, yields_bind_iff] at h
    obtain ⟨c, _, hc, h⟩ := h
    obtain ⟨rest, _, hrest, h⟩ := yields_bind_iff.mp h
    rw [← (yields_pure_iff.mp h).1]
    exact ((hvalue name hc).under _).append (ih hrest)

theorem expandWith_keeps {inner : Scope → Root → List String → Compile Compiled}
    (hinner : ∀ scope root path {r st st'}, Yields (inner scope root path) st r st' → r.Keeps s V)
    {scope : Scope} {root : Root} {path : List String} {r : Compiled} {st st' : Collected}
    (h : Yields (expandWith inner s scope root path) st r st') : r.Keeps s V := by
  rw [expandWith, yields_bind_iff] at h
  obtain ⟨l?, _, hlookup, h⟩ := h
  split at h
  · exact objectOf_keeps (fun name => hinner _ _ _) h
  · rename_i id table
    -- The table that is expanded is one of the statement.
    have hid := Compile.lookup_yields_table hlookup
    simp only at h
    split at h
    · exact objectOf_keeps (fun name => hinner _ _ _) h
    · split at h
      · obtain ⟨c, _, hc, h⟩ := yields_bind_iff.mp h
        have hc := objectOf_keeps (fun name => hinner _ _ _) hc
        rw [← (yields_pure_iff.mp h).1]
        refine hc.withTables (forall_mem_append_tables hc.tables fun m hm => ?_)
        rw [List.mem_singleton.mp hm]
        exact hid
      · obtain ⟨b, _, -, h⟩ := yields_bind_iff.mp h
        obtain ⟨c, _, hc, h⟩ := yields_bind_iff.mp h
        have hc := objectOf_keeps (fun name => hinner _ _ _) hc
        rw [← (yields_pure_iff.mp h).1]
        exact hc.withTables (List.forall_mem_cons.mpr ⟨hid, hc.tables⟩)
  · exact compileChain_keeps hV (fun _ hm => absurd hm List.not_mem_nil) h

theorem expandWhole_keeps {scope : Scope} {c r : Compiled} {st st' : Collected}
    (hc : c.Keeps s V) (h : Yields (expandWhole s scope c) st r st') : r.Keeps s V := by
  rw [expandWhole, yields_bind_iff] at h
  obtain ⟨whole, _, -, h⟩ := h
  split at h
  · rw [← (yields_pure_iff.mp h).1]
    exact hc
  · obtain ⟨expanded, _, hexpanded, h⟩ := yields_bind_iff.mp h
    -- A shape expands to tables and these to columns; after two rounds only chains are left.
    have hexpanded : expanded.Keeps s V :=
      expandWith_keeps hV (fun _ _ _ => expandWith_keeps hV fun _ _ _ =>
        compileChain_keeps hV fun _ hm => absurd hm List.not_mem_nil) hexpanded
    rw [← (yields_pure_iff.mp h).1]
    exact hexpanded.withTables (forall_mem_append_tables hexpanded.tables hc.tables)

/-! ### Parameters and operands -/

theorem compileParameter_keeps {e : Expr} {r : Compiled} {st st' : Collected}
    (h : Yields (compileParameter e) st r st') : r.Keeps s V := by
  obtain ⟨id, type, -, rfl⟩ := compileParameter_yields h
  exact Compiled.keeps_ofLeaf (hV.param id)

omit hV in
theorem toOperand_keeps {e : Expr} {c : Compiled} {o : Operand} {st st' : Collected}
    (hc : c.Keeps s V) (h : Yields (toOperand s e c) st o st') : o.Keeps s V := by
  obtain ⟨-, htables, out, hout, hvalue⟩ := toOperand_yields h
  exact ⟨hvalue ▸ hc.of_value?_eq_some hout, htables ▸ hc.tables⟩

omit hV in
/-- An operand keeps what the result behind it keeps. -/
theorem operandOf_keeps {parent child : Expr} {action : Compile Compiled} {o : Operand}
    {st st' : Collected} (h : Yields (operandOf s parent child action) st o st')
    (haction : ∀ {c st st'}, Yields action st c st' → c.Keeps s V) : o.Keeps s V := by
  obtain ⟨c, hc, htables, out, hout, hvalue⟩ := operandOf_yields h
  have hc := haction hc
  exact ⟨hvalue ▸ hc.of_value?_eq_some hout, htables ▸ hc.tables⟩

theorem compileFunction_keeps (function : Function) {o : Operand} (ho : o.Keeps s V) :
    (compileFunction function o).Keeps s V := by
  refine Compiled.keeps_ofValue ?_ ho.tables
  have hvalue := ho.value
  split
  · rename_i heq
    rw [heq] at hvalue
    exact hV.function function hvalue
  · exact hV.wrap rfl hvalue

omit hV in
theorem membershipItems_isParameterList {list v : Accumulator Symbol} {es : List Expr}
    {st st' : Collected} (hlist : list.IsParameterList)
    (h : Yields (membershipItems list es) st v st') : v.IsParameterList := by
  induction es generalizing list st st' with
  | nil =>
    rw [← (yields_pure_iff.mp h).1]
    exact hlist
  | cons e es ih =>
    rw [membershipItems, yields_bind_iff] at h
    obtain ⟨item, _, hitem, h⟩ := h
    obtain ⟨-, id, type, -, rfl⟩ := membershipItem_yields hitem
    exact ih (.comma id hlist) h

omit hV in
theorem membershipList_isParameterList {e : Expr} {v : Accumulator Symbol} {st st' : Collected}
    (h : Yields (membershipList e) st v st') : v.IsParameterList := by
  obtain ⟨-, id, _, rfl, -⟩ | ⟨item, items, first, _, -, hfirst, hrest⟩ := membershipList_yields h
  · exact .param id
  · obtain ⟨-, id, type, -, rfl⟩ := membershipItem_yields hfirst
    exact membershipItems_isParameterList (.param id) hrest

theorem compileMembership_keeps {o : Operand} {set : Expr} {r : Compiled} {st st' : Collected}
    (ho : o.Keeps s V) (h : Yields (compileMembership o set) st r st') : r.Keeps s V := by
  obtain ⟨list, hlist, rfl⟩ := compileMembership_yields h
  exact Compiled.keeps_ofValue (hV.isIn ho.value (membershipList_isParameterList hlist)) ho.tables

/-! ### Collections -/

theorem compileAggregate_keeps {scope : Scope} (hscope : scope.table ∈ s.tableIds) {e : Expr}
    {function : Aggregate} {c r : Compiled} {st st' : Collected} (hc : c.Keeps s V)
    (h : Yields (compileAggregate s scope e function c) st r st') : r.Keeps s V := by
  obtain ⟨-, out, value, tables, hout, rfl, hsource⟩ := compileAggregate_yields h
  have hkept : V value ∧ ∀ m ∈ tables, m.table ∈ s.tableIds := by
    obtain ⟨-, rfl, rfl⟩ | ⟨id, table, root, path, hw, -, rfl, rfl⟩ := hsource
    · exact ⟨hc.of_value?_eq_some hout, hc.tables⟩
    · refine ⟨hV.chain _ _, forall_mem_append_tables hc.tables fun m hm => ?_⟩
      rw [List.mem_singleton.mp hm]
      exact whole?_yields_table hw
  refine Compiled.keeps_ofValue (hV.aggregate function hkept.1 hscope) fun m hm => ?_
  obtain ⟨m', hm', rfl⟩ := List.mem_map.mp hm
  exact hkept.2 m' hm'

omit hV in
/-- The table that a `select` ranges over is one of the statement. -/
theorem compileRange_keeps {e : Expr} {c : Compiled} {range : Range} {st st' : Collected}
    (hc : c.Keeps s V) (h : Yields (compileRange s e c) st range st') :
    (∀ t, range.table? = some t → t ∈ s.tableIds) ∧ ∀ m ∈ range.tables, m.table ∈ s.tableIds := by
  obtain ⟨root, path, l?, -, hl, -, htables, htable⟩ := compileRange_yields h
  refine ⟨fun t ht => ?_, htables ▸ hc.tables⟩
  obtain ⟨table, rfl⟩ := htable t ht
  exact Compile.lookup_yields_table hl

omit hV in
theorem Range.result_keeps {range : Range} {scope : Scope} {body : Compiled}
    (htable : ∀ t, range.table? = some t → t ∈ s.tableIds)
    (htables : ∀ m ∈ range.tables, m.table ∈ s.tableIds) (hbody : body.Keeps s V) :
    (range.result s scope body).Keeps s V := by
  refine hbody.withTables (forall_mem_append_tables (forall_mem_append_tables htables ?_)
    hbody.tables)
  intro m hm
  split at hm
  · rw [List.mem_singleton.mp hm]
    exact htable _ ‹_›
  · exact absurd hm List.not_mem_nil

omit hV in
theorem compileOne_keeps {e : Expr} {c r : Compiled} {st st' : Collected} (hc : c.Keeps s V)
    (h : Yields (compileOne e c) st r st') : r.Keeps s V := by
  unfold compileOne at h
  simp only at h
  split at h
  · rw [← (yields_pure_iff.mp h).1]
    refine hc.withTables fun m hm => ?_
    obtain ⟨m', hm', rfl⟩ := List.mem_map.mp hm
    split
    · exact hc.tables m' hm'
    · exact hc.tables m' hm'
  · exact absurd h not_yields_throw

/-! ### Expressions -/

omit hV in
theorem CompiledBranches.Keeps.cons {bs : CompiledBranches} {test value : Operand}
    (hbs : bs.Keeps s V) (ht : test.Keeps s V) (hv : value.Keeps s V) :
    (bs.cons test value).Keeps s V :=
  ⟨List.forall_mem_cons.mpr ⟨⟨ht.value, hv.value⟩, hbs.branches⟩,
    forall_mem_append_tables (forall_mem_append_tables ht.tables hv.tables) hbs.tables⟩

omit hV in
theorem CompiledBranches.keeps_empty : CompiledBranches.Keeps s V {} :=
  ⟨fun _ hb => absurd hb List.not_mem_nil, fun _ hm => absurd hm List.not_mem_nil⟩

omit hV in
theorem alternative_keeps {whole e : Expr} {action : Compile Compiled}
    {further? : Option (Compile (CompiledBranches × Operand))} {bs : CompiledBranches}
    {o : Operand} {st st' : Collected}
    (haction : ∀ {c st st'}, Yields action st c st' → c.Keeps s V)
    (hfurther : ∀ {further st bs o st'}, further? = some further →
      Yields further st (bs, o) st' → bs.Keeps s V ∧ o.Keeps s V)
    (h : Yields (alternative s whole e action further?) st (bs, o) st') :
    bs.Keeps s V ∧ o.Keeps s V := by
  unfold alternative at h
  split at h
  · exact hfurther rfl h
  · obtain ⟨o', _, ho, h⟩ := yields_bind_iff.mp h
    have heq := (yields_pure_iff.mp h).1
    rw [Prod.mk.injEq] at heq
    rw [← heq.1, ← heq.2]
    exact ⟨CompiledBranches.keeps_empty, operandOf_keeps ho haction⟩

end

mutual

/-- **Every compiled value keeps what all constructions keep.** -/
theorem compile_keeps {s : Statement} {V : Accumulator Symbol → Prop}
    (hV : ClosedValues s V) (e : Expr) {scope : Scope} (hscope : scope.table ∈ s.tableIds)
    {r : Compiled} {st st' : Collected} (h : Yields (compile s scope e) st r st') :
    r.Keeps s V := by
  unfold compile at h
  split at h
  · exact compileParameter_keeps hV h
  -- What reads no row is a parameter; the cases that follow read rows.
  cases e with
  | row => exact compileChain_keeps hV (fun _ hm => absurd hm List.not_mem_nil) h
  | var name =>
    simp only at h
    split at h
    · exact compileChain_keeps hV (fun _ hm => absurd hm List.not_mem_nil) h
    · exact absurd h not_yields_throw
  | args => exact compileParameter_keeps hV h
  | constant v => exact compileParameter_keeps hV h
  | member base name =>
    obtain ⟨c, _, hc, h⟩ := yields_bind_iff.mp h
    exact compileMember_keeps hV (compile_keeps hV base hscope (Compile.yields_within_iff.mp hc)) h
  | unary op operand =>
    obtain ⟨o, _, ho, h⟩ := yields_bind_iff.mp h
    have hkeeps := operandOf_keeps ho (compile_keeps hV operand hscope)
    cases op with
    | not =>
      rw [← (yields_pure_iff.mp h).1]
      exact Compiled.keeps_ofValue (hV.wrap rfl hkeeps.value) hkeeps.tables
    | negate =>
      rw [← (yields_pure_iff.mp h).1]
      exact Compiled.keeps_ofValue (hV.wrap rfl hkeeps.value) hkeeps.tables
  | binary op left right =>
    cases op with
    | isIn =>
      obtain ⟨o, _, ho, h⟩ := yields_bind_iff.mp h
      exact compileMembership_keeps hV (operandOf_keeps ho (compile_keeps hV left hscope)) h
    | comma => exact absurd h not_yields_throw
    | _ =>
      obtain ⟨l, _, hl, h⟩ := yields_bind_iff.mp h
      obtain ⟨r, _, hr, h⟩ := yields_bind_iff.mp h
      have hl := operandOf_keeps hl (compile_keeps hV left hscope)
      have hr := operandOf_keeps hr (compile_keeps hV right hscope)
      rw [← (yields_pure_iff.mp h).1]
      exact Compiled.keeps_ofValue (hV.binary (by simp) (by simp) hl.value hr.value)
        (forall_mem_append_tables hl.tables hr.tables)
  | tuple items => exact compileItems_keeps hV items hscope h
  | array items => exact compileItems_keeps hV items hscope h
  | object members => exact compileMembers_keeps hV members hscope h
  | conditional test ifTrue ifFalse =>
    obtain ⟨t, _, ht, h⟩ := yields_bind_iff.mp h
    obtain ⟨v, _, hv, h⟩ := yields_bind_iff.mp h
    obtain ⟨⟨bs, o⟩, _, hbs, h⟩ := yields_bind_iff.mp h
    have ht := operandOf_keeps ht (compile_keeps hV test hscope)
    have hv := operandOf_keeps hv (compile_keeps hV ifTrue hscope)
    obtain ⟨hbs, ho⟩ := alternative_keeps (compile_keeps hV ifFalse hscope)
      (compileElse_keeps hV ifFalse hscope) hbs
    have hbs := hbs.cons ht hv
    rw [← (yields_pure_iff.mp h).1]
    exact Compiled.keeps_ofValue (hV.cases hbs.branches ho.value)
      (forall_mem_append_tables hbs.tables ho.tables)
  | cases branches otherwise =>
    obtain ⟨bs, _, hbs, h⟩ := yields_bind_iff.mp h
    obtain ⟨o, _, ho, h⟩ := yields_bind_iff.mp h
    have hbs := compileBranches_keeps hV branches hscope hbs
    have ho := operandOf_keeps ho (compile_keeps hV otherwise hscope)
    rw [← (yields_pure_iff.mp h).1]
    exact Compiled.keeps_ofValue (hV.cases hbs.branches ho.value)
      (forall_mem_append_tables hbs.tables ho.tables)
  | casesOf subject branches otherwise =>
    obtain ⟨k, _, hk, h⟩ := yields_bind_iff.mp h
    obtain ⟨bs, _, hbs, h⟩ := yields_bind_iff.mp h
    obtain ⟨o, _, ho, h⟩ := yields_bind_iff.mp h
    have hk := operandOf_keeps hk (compile_keeps hV subject hscope)
    have hbs := compileBranches_keeps hV branches hscope hbs
    have ho := operandOf_keeps ho (compile_keeps hV otherwise hscope)
    rw [← (yields_pure_iff.mp h).1]
    exact Compiled.keeps_ofValue (hV.casesOf hk.value hbs.branches ho.value)
      (forall_mem_append_tables (forall_mem_append_tables hk.tables hbs.tables) ho.tables)
  | aggregate function source =>
    obtain ⟨c, _, hc, h⟩ := yields_bind_iff.mp h
    -- Beneath the aggregate the table of the scope stays the same.
    have hinner : ({ scope with beneath := true } : Scope).table ∈ s.tableIds := hscope
    have hc := compile_keeps hV source hinner (Compile.yields_within_iff.mp hc)
    exact compileAggregate_keeps hV hscope hc h
  | apply function operand =>
    obtain ⟨o, _, ho, h⟩ := yields_bind_iff.mp h
    have ho := operandOf_keeps ho (compile_keeps hV operand hscope)
    rw [← (yields_pure_iff.mp h).1]
    exact compileFunction_keeps hV function ho
  | select source param body =>
    obtain ⟨c, _, hc, h⟩ := yields_bind_iff.mp h
    obtain ⟨range, _, hrange, h⟩ := yields_bind_iff.mp h
    obtain ⟨b, _, hb, h⟩ := yields_bind_iff.mp h
    obtain ⟨b', _, hb', hb⟩ := yields_bind_iff.mp (Compile.yields_within_iff.mp hb)
    have hc := compile_keeps hV source hscope (Compile.yields_within_iff.mp hc)
    obtain ⟨htable, htables⟩ := compileRange_keeps hc hrange
    -- The body has the table that the range leads to, or else that of the scope around.
    have hinner : (range.scope scope param).table ∈ s.tableIds := by
      rw [Range.scope]
      cases ht : range.table? with
      | none => exact hscope
      | some t => exact htable t ht
    rw [← (yields_pure_iff.mp h).1]
    exact Range.result_keeps htable htables
      (expandWhole_keeps hV (compile_keeps hV body hinner hb') hb)
  | toList source =>
    obtain ⟨c, _, hc, h⟩ := yields_bind_iff.mp (Compile.yields_within_iff.mp h)
    exact expandWhole_keeps hV (compile_keeps hV source hscope hc) h
  | one source =>
    obtain ⟨c, _, hc, h⟩ := yields_bind_iff.mp h
    obtain ⟨c', _, hc', hc⟩ := yields_bind_iff.mp (Compile.yields_within_iff.mp hc)
    exact compileOne_keeps (expandWhole_keeps hV (compile_keeps hV source hscope hc') hc) h
  | rowNumber =>
    rw [← (yields_pure_iff.mp h).1]
    exact Compiled.keeps_ofLeaf (hV.chain _ _)
  | isIn value set =>
    obtain ⟨o, _, ho, h⟩ := yields_bind_iff.mp h
    exact compileMembership_keeps hV (operandOf_keeps ho (compile_keeps hV value hscope)) h
  | contains set value =>
    obtain ⟨o, _, ho, h⟩ := yields_bind_iff.mp h
    exact compileMembership_keeps hV (operandOf_keeps ho (compile_keeps hV value hscope)) h
  | method receiver name arguments => exact absurd h not_yields_throw
termination_by structural e

theorem compileItems_keeps {s : Statement} {V : Accumulator Symbol → Prop}
    (hV : ClosedValues s V) (es : List Expr) {scope : Scope} (hscope : scope.table ∈ s.tableIds)
    {whole : Expr} {index : Nat} {r : Compiled} {st st' : Collected}
    (h : Yields (compileItems s scope whole index es) st r st') : r.Keeps s V := by
  cases es with
  | nil =>
    rw [← (yields_pure_iff.mp h).1]
    exact Compiled.keeps_empty
  | cons e es =>
    obtain ⟨c, _, hc, h⟩ := yields_bind_iff.mp h
    obtain ⟨rest, _, hrest, h⟩ := yields_bind_iff.mp h
    obtain ⟨c', _, hc', hc⟩ := yields_bind_iff.mp (Compile.yields_within_iff.mp hc)
    have hc := expandWhole_keeps hV (compile_keeps hV e hscope hc') hc
    rw [← (yields_pure_iff.mp h).1]
    exact (hc.under _).append (compileItems_keeps hV es hscope hrest)
termination_by structural es

theorem compileMembers_keeps {s : Statement} {V : Accumulator Symbol → Prop}
    (hV : ClosedValues s V) (es : List (String × Expr)) {scope : Scope}
    (hscope : scope.table ∈ s.tableIds) {whole : Expr} {r : Compiled} {st st' : Collected}
    (h : Yields (compileMembers s scope whole es) st r st') : r.Keeps s V := by
  cases es with
  | nil =>
    rw [← (yields_pure_iff.mp h).1]
    exact Compiled.keeps_empty
  | cons member es =>
    obtain ⟨name, e⟩ := member
    obtain ⟨c, _, hc, h⟩ := yields_bind_iff.mp h
    obtain ⟨rest, _, hrest, h⟩ := yields_bind_iff.mp h
    obtain ⟨c', _, hc', hc⟩ := yields_bind_iff.mp (Compile.yields_within_iff.mp hc)
    have hc := expandWhole_keeps hV (compile_keeps hV e hscope hc') hc
    rw [← (yields_pure_iff.mp h).1]
    exact (hc.under _).append (compileMembers_keeps hV es hscope hrest)
termination_by structural es

theorem compileBranches_keeps {s : Statement} {V : Accumulator Symbol → Prop}
    (hV : ClosedValues s V) (bs : List (Expr × Expr)) {scope : Scope}
    (hscope : scope.table ∈ s.tableIds) {whole : Expr} {r : CompiledBranches}
    {st st' : Collected} (h : Yields (compileBranches s scope whole bs) st r st') :
    r.Keeps s V := by
  cases bs with
  | nil =>
    rw [← (yields_pure_iff.mp h).1]
    exact CompiledBranches.keeps_empty
  | cons branch rest =>
    obtain ⟨test, value⟩ := branch
    obtain ⟨t, _, ht, h⟩ := yields_bind_iff.mp h
    obtain ⟨v, _, hv, h⟩ := yields_bind_iff.mp h
    obtain ⟨r', _, hr', h⟩ := yields_bind_iff.mp h
    have ht := operandOf_keeps ht (compile_keeps hV test hscope)
    have hv := operandOf_keeps hv (compile_keeps hV value hscope)
    rw [← (yields_pure_iff.mp h).1]
    exact (compileBranches_keeps hV rest hscope hr').cons ht hv
termination_by structural bs

theorem compileElse_keeps {s : Statement} {V : Accumulator Symbol → Prop}
    (hV : ClosedValues s V) (e : Expr) {scope : Scope} (hscope : scope.table ∈ s.tableIds)
    {whole : Expr} {further : Compile (CompiledBranches × Operand)} {bs : CompiledBranches}
    {o : Operand} {st st' : Collected} (hfurther : compileElse s scope whole e = some further)
    (h : Yields further st (bs, o) st') : bs.Keeps s V ∧ o.Keeps s V := by
  cases e with
  | conditional test ifTrue ifFalse =>
    rw [← Option.some.inj hfurther] at h
    obtain ⟨t, _, ht, h⟩ := yields_bind_iff.mp h
    obtain ⟨v, _, hv, h⟩ := yields_bind_iff.mp h
    obtain ⟨⟨bs', o'⟩, _, hbs, h⟩ := yields_bind_iff.mp h
    have ht := operandOf_keeps ht (compile_keeps hV test hscope)
    have hv := operandOf_keeps hv (compile_keeps hV ifTrue hscope)
    obtain ⟨hbs, ho⟩ := alternative_keeps (compile_keeps hV ifFalse hscope)
      (compileElse_keeps hV ifFalse hscope) hbs
    have heq := (yields_pure_iff.mp h).1
    rw [Prod.mk.injEq] at heq
    rw [← heq.1, ← heq.2]
    exact ⟨hbs.cons ht hv, ho⟩
  | _ => exact absurd hfurther (by simp [compileElse])
termination_by structural e

end

/-! ### Mappings and conditions -/

theorem compileMapping_keeps {s : Statement} {V : Accumulator Symbol → Prop}
    (hV : ClosedValues s V) {e : Expr} {r : Compiled} {st st' : Collected}
    (h : Yields (compileMapping s e) st r st') : r.Keeps s V := by
  rw [compileMapping, compileValue, yields_bind_iff] at h
  obtain ⟨c, _, hc, h⟩ := h
  exact expandWhole_keeps hV (compile_keeps hV e s.zero_mem_tableIds hc) h

theorem compileCondition_keeps {s : Statement} {V : Accumulator Symbol → Prop}
    (hV : ClosedValues s V) {e : Expr} {v : Accumulator Symbol} {st st' : Collected}
    (h : Yields (compileCondition s e) st v st') :
    V v ∧ v.aggregation Symbol.isParam = .none := by
  rw [compileCondition, yields_bind_iff] at h
  obtain ⟨c, _, hc, h⟩ := h
  obtain ⟨o, _, ho, h⟩ := yields_bind_iff.mp h
  have ho := toOperand_keeps (compile_keeps hV e s.zero_mem_tableIds hc) ho
  by_cases hnone : o.value.aggregation Symbol.isParam = .none
  · rw [if_pos hnone] at h
    rw [← (yields_pure_iff.mp h).1]
    exact ⟨ho.value, hnone⟩
  · rw [if_neg hnone] at h
    exact absurd h not_yields_throw

end NestedQuery
