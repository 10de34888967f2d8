import NestedQuery.Proofs.Mapping.Chains
import NestedQuery.Proofs.Mapping.Placing

/-!
# Expansion by recompilation

A whole table or shape may be expanded by compiling another expression: the object of its members,
or a `select` that enters a collection (`expandBy`). These contain the expression that led to the
table, and their parts may be whole tables, too, so it is not plain that this ever ends. `recompile`
counts how deep such expansions lie inside each other and looks at what sets them off (`Trigger`):
the members of the shape are whole tables, a collection is entered once, and of the fields of a
table only those are expanded that are named like joined tables.

Three expansions inside each other are all there is (`compileWith_recompile`). The first opens the
shape or its row, the second a table one step below, and if that is a collection, the third takes
its fields; these lie two steps below the shape, where there are columns only.
-/

namespace NestedQuery

open Compile

/-! ### Triggers -/

/-- What sets off an expansion. -/
inductive Trigger where
  /-- A part of the mapping. -/
  | mapping
  /-- The expansion of the whole shape into its members. -/
  | shape
  /-- The expansion of a table with many rows outside its own scope, by a `select`. -/
  | collection (id : TableId)
  /-- The expansion of a table into its fields. -/
  | fields

/-- What the expression `e` may come to where the trigger has put it: a member of the shape is a
table or no whole at all, the collection is in its own scope now, and only a field that is named
like a joined table is a whole table. -/
def Trigger.allows (s : Statement) (scope : Scope) (e : Expr) : Trigger → Option Whole → Bool
  | .mapping, _ => true
  | .shape, some .shape => false
  | .shape, _ => true
  | .collection id, some (.table id' _) => id' = id && id' = scope.table
  | .collection _, _ => false
  | .fields, none => true
  | .fields, some .shape => false
  | .fields, some (.table ..) =>
    match e with
    | .member _ name => s.joins.any fun j => j.path = name
    | _ => false

/-- What sets off the expansions of the members of a whole. -/
def Whole.trigger : Whole → Trigger
  | .shape => .shape
  | .table .. => .fields

section

variable {s : Statement} {scope : Scope} {e : Expr} {w w' : Whole} {name : String}

/-- A member may be a column always. -/
theorem Whole.trigger_allows_none : w.trigger.allows s scope e none = true := by
  cases w <;> rfl

/-- The members of the shape, or of its row, may be the whole tables that they are. -/
theorem Whole.trigger_allows (hw : s.lookup? [] = some w.toLookup)
    (hw' : s.lookup? [name] = some w'.toLookup) :
    w.trigger.allows s scope (.member e name) (some w') = true := by
  obtain ⟨id', hmember, rfl⟩ := Statement.memberTable?_of_lookup? hw'
  cases w with
  | shape => rfl
  | table id table =>
    have hrow := (Statement.cardinality_of_lookup?_nil hw).1
    exact Statement.any_joins_of_memberTable? hrow hmember

end

/-! ### Expansions that recompile -/

/-- The object of the members of `e` with the given names. -/
def Expr.membersOf (e : Expr) (names : List String) : Expr :=
  .object (names.map fun name => (name, .member e name))

/-- The whole `w` that `e` leads to, expanded by compiling an expression over `e`. What this sets
off is left to `place`. A `select` takes the name of its parameter from `fresh`. -/
def expandBy (s : Statement) (fresh : Collected → String) (place : Trigger → Placing)
    (scope : Scope) (e : Expr) (w : Whole) : Compile Compiled := do
  let members := e.membersOf (w.members s)
  match w with
  | .shape => compileValueWith s (place .shape) scope members
  | .table id _ =>
    if id = scope.table then compileWith s (place .fields) scope members
    else
      match s.cardinality id with
      | .one =>
        let c ← compileWith s (place .fields) scope members
        return { c with tables := c.tables ++ [⟨id, [], scope.beneath, true⟩] }
      | .many =>
        let param := fresh (← get)
        compileWith s (place (.collection id)) scope (.select e param (.var param))

/-- The placing that expands by `expansion`. What the trigger does not allow is left to `beyond`. -/
def placeBy (s : Statement) (beyond : Scope → Expr → Compile Compiled)
    (expansion : Scope → Expr → Whole → Compile Compiled) (trigger : Trigger) : Placing :=
  fun scope e c => do
    let w? ← whole? s c
    if trigger.allows s scope e (w?.map Prod.fst) then
      match w? with
      | none => return c
      | some (w, _) =>
        let expanded ← expansion scope e w
        return { expanded with tables := expanded.tables ++ c.tables }
    else beyond scope e

/-- The placing that expands by recompilation, at most `depth` expansions inside each other. Further
ones, and what a trigger does not allow, are left to `beyond`. -/
def recompile (s : Statement) (fresh : Collected → String)
    (beyond : Scope → Expr → Compile Compiled) (depth : Nat) : Trigger → Placing :=
  match depth with
  | 0 => placeBy s beyond fun scope e _ => beyond scope e
  | depth + 1 => placeBy s beyond (expandBy s fresh (recompile s fresh beyond depth))

section

variable {s : Statement} {fresh : Collected → String} {beyond : Scope → Expr → Compile Compiled}
  {depth : Nat} {trigger : Trigger} {scope : Scope} {c c' : Collected} {r o : Compiled} {e : Expr}
  {root : Root} {path : List String} {w : Whole}

/-- What is expanded already stays as it is. -/
theorem recompile_yields_of_isExpanded (h : r.IsExpanded s c)
    (ht : trigger.allows s scope e none = true) :
    Yields (recompile s fresh beyond depth trigger scope e r) c r c := by
  have hplace : ∀ expansion, Yields (placeBy s beyond expansion trigger scope e r) c r c := by
    intro expansion
    refine yields_bind_iff.mpr ⟨none, c, h, ?_⟩
    rw [Option.map_none, if_pos ht]
    exact yields_pure_iff.mpr ⟨rfl, rfl⟩
  cases depth with
  | zero => exact hplace _
  | succ depth => exact hplace _

/-- A whole is expanded, and there may be one expansion less inside. -/
theorem recompile_yields_of_whole (hw : Yields (whole? s r) c (some (w, root, path)) c)
    (ht : trigger.allows s scope e (some w) = true)
    (ho : Yields (expandBy s fresh (recompile s fresh beyond depth) scope e w) c o c') :
    Yields (recompile s fresh beyond (depth + 1) trigger scope e r) c
      { o with tables := o.tables ++ r.tables } c' := by
  refine yields_bind_iff.mpr ⟨_, c, hw, ?_⟩
  rw [Option.map_some, if_pos ht]
  exact yields_bind_iff.mpr ⟨o, c', ho, yields_pure_iff.mpr ⟨rfl, rfl⟩⟩

end

/-! ### Chains and their members -/

/-- Wherever there are the bindings of `c`, the second step yields what the first does, and bindings
are only added. -/
def Follows (c : Collected) (x y : Compile Compiled) : Prop :=
  ∀ c₁ r c', c.bindings <+: c₁.bindings → Yields x c₁ r c' →
    c₁.bindings <+: c'.bindings ∧ Yields y c₁ r c'

section

variable {s : Statement} {place : Placing} {scope : Scope} {c c' : Collected} {r : Compiled}
  {e : Expr} {root : Root} {path path' : List String} {name : String}

/-- A member of a chain compiles to the longer chain. -/
theorem compileWith_member_yields {type : ValueType} (he : e.ChainsTo s scope c root path path')
    (h : Yields (compileWith s place scope e) c (.ofValue (chainLeaf root path) type) c)
    (hr : Yields (compileChain s root (path ++ [name])) c r c') :
    Yields (compileWith s place scope (.member e name)) c r c' := by
  have hparameter : ¬ (Expr.member e name).isParameter = true := by
    simp [he.isParameter_member]
  unfold compileWith
  rw [if_neg hparameter]
  exact yields_bind_iff.mpr ⟨_, c, yields_within_iff.mpr h, hr⟩

/-- A chain compiles to itself: it has no part to be placed. -/
theorem Expr.ChainsTo.compileWith_yields (he : e.ChainsTo s scope c root path path')
    (place : Placing) :
    ∃ type, Yields (compileWith s place scope e) c (.ofValue (chainLeaf root path) type) c := by
  induction he with
  | row =>
    have hpath : NestedQuery.qualify c.bindings .row [] = .ok [] := rfl
    exact compileChain_yields_of_qualify hpath []
  | var hlookup hb =>
    obtain ⟨type, hr⟩ := compileChain_yields_of_qualify (s := s) hb []
    refine ⟨type, ?_⟩
    unfold compileWith
    dsimp only
    rw [hlookup]
    exact hr
  | rowNumber hrow => exact ⟨.integer, yields_pure_iff.mpr ⟨hrow, rfl⟩⟩
  | member name hbase ih =>
    obtain ⟨type, hr⟩ := ih
    obtain ⟨type', hr'⟩ := compileChain_yields_of_qualify (s := s) (hbase.member name).qualify []
    exact ⟨type', compileWith_member_yields hbase hr hr'⟩

theorem objectOf_follows {value value' : String → Compile Compiled}
    (h : ∀ name, Follows c (value name) (value' name)) (names : List String) :
    Follows c (objectOf value names) (objectOf value' names) := by
  induction names with
  | nil =>
    intro c₁ r c' _ hr
    obtain ⟨rfl, rfl⟩ := yields_pure_iff.mp hr
    exact ⟨List.prefix_rfl, hr⟩
  | cons name names ih =>
    intro c₁ r c' hc hr
    obtain ⟨m, c₂, hm, hr⟩ := yields_bind_iff.mp hr
    obtain ⟨rest, c₃, hrest, hr⟩ := yields_bind_iff.mp hr
    obtain ⟨rfl, rfl⟩ := yields_pure_iff.mp hr
    obtain ⟨hc₂, hm'⟩ := h name c₁ m c₂ hc hm
    obtain ⟨hc₃, hrest'⟩ := ih c₂ rest c₃ (hc.trans hc₂) hrest
    refine ⟨hc₂.trans hc₃, yields_bind_iff.mpr ⟨m, c₂, hm', ?_⟩⟩
    exact yields_bind_iff.mpr ⟨rest, c₃, hrest', yields_pure_iff.mpr ⟨rfl, rfl⟩⟩

/-- The object of the members of `e` is compiled member by member. -/
theorem compileMembersWith_eq_objectOf (whole : Expr) (names : List String) :
    compileMembersWith s place scope whole (names.map fun name => (name, .member e name)) =
      objectOf (fun name => within whole (compileValueWith s place scope (.member e name)))
        names := by
  induction names with
  | nil => rfl
  | cons name names ih =>
    rw [List.map_cons, compileMembersWith, ih]
    rfl

/-- So it follows the object of what its members follow. -/
theorem compileWith_membersOf_follows {value : String → Compile Compiled}
    (h : ∀ name, Follows c (value name) (compileValueWith s place scope (.member e name)))
    (names : List String) :
    Follows c (objectOf value names) (compileWith s place scope (e.membersOf names)) := by
  have hwithin : ∀ name, Follows c (value name)
      (within (e.membersOf names) (compileValueWith s place scope (.member e name))) := by
    intro name c₁ m c₂ hc hm
    obtain ⟨hc₂, hm'⟩ := h name c₁ m c₂ hc hm
    exact ⟨hc₂, yields_within_iff.mpr hm'⟩
  have hmembers := objectOf_follows hwithin names
  rw [← compileMembersWith_eq_objectOf] at hmembers
  exact hmembers

/-- A member that is a column needs no expansion. -/
theorem compileChain_follows {fresh : Collected → String}
    {beyond : Scope → Expr → Compile Compiled} {depth : Nat} {trigger : Trigger}
    (he : e.ChainsTo s scope c root path path') (hcolumn : s.isWhole (path' ++ [name]) = false)
    (ht : trigger.allows s scope (.member e name) none = true) :
    Follows c (compileChain s root (path ++ [name]))
      (compileValueWith s (recompile s fresh beyond depth trigger) scope (.member e name)) := by
  intro c₁ r c' hc hr
  have he₁ := he.mono hc
  obtain ⟨type, h⟩ := he₁.compileWith_yields (recompile s fresh beyond depth trigger)
  have hmember := compileWith_member_yields he₁ h hr
  obtain ⟨rfl, type', rfl⟩ := compileChain_yields hr
  have hexpanded := Compiled.isExpanded_of_isWhole_eq_false
    (r := .ofValue (chainLeaf root (path ++ [name])) type') rfl (he₁.member name).qualify hcolumn
  exact ⟨List.prefix_rfl, yields_bind_iff.mpr ⟨_, c₁, hmember,
    recompile_yields_of_isExpanded hexpanded ht⟩⟩

/-! ### Collections -/

variable {id : TableId} {table : Table}

theorem compileRange_yields_of_table (whole : Expr) (type : ValueType)
    (hpath : qualify c.bindings root path = .ok path')
    (hl : s.lookup? path' = some (.table id table)) :
    Yields (compileRange s whole (.ofValue (chainLeaf root path) type)) c
      ⟨c.bindings.length, some id, []⟩ (c.bound root path) := by
  refine (yields_lookup_bind_iff hpath).mpr ?_
  rw [hl]
  exact yields_bind_iff.mpr ⟨_, _, bind_yields c root path, yields_pure_iff.mpr ⟨rfl, rfl⟩⟩

/-- Where a `select` enters the collection `id` by the next binding. -/
def Scope.entered (scope : Scope) (c : Collected) (id : TableId) (param : String) : Scope :=
  (⟨c.bindings.length, some id, []⟩ : Range).scope scope param

/-- There the parameter leads where the source of the `select` does. -/
theorem Expr.ChainsTo.entered (he : e.ChainsTo s scope c root path path') (id : TableId)
    (param : String) :
    (Expr.var param).ChainsTo s (scope.entered c id param) (c.bound root path)
      (.binding c.bindings.length) [] path' := by
  have hbound := qualify_bound he.qualify []
  rw [List.append_nil] at hbound
  exact .var List.lookup_cons_self hbound

/-- A `select` of the rows themselves is what becomes of its parameter, and the table is ranged
over. -/
theorem compileWith_select_var_yields {param : String} {o : Compiled}
    (he : e.ChainsTo s scope c root path path') (hl : s.lookup? path' = some (.table id table))
    (h : Yields (compileValueWith s place (scope.entered c id param) (.var param))
      (c.bound root path) o c') :
    Yields (compileWith s place scope (.select e param (.var param))) c
      { o with tables := ⟨id, [], scope.beneath, s.cardinality id == .one⟩ :: o.tables } c' := by
  obtain ⟨type, hsource⟩ := he.compileWith_yields place
  have hrange := compileRange_yields_of_table (.select e param (.var param)) type he.qualify hl
  refine yields_bind_iff.mpr ⟨_, c, yields_within_iff.mpr hsource, ?_⟩
  refine yields_bind_iff.mpr ⟨_, c.bound root path, hrange, ?_⟩
  exact yields_bind_iff.mpr ⟨o, c', yields_within_iff.mpr h, yields_pure_iff.mpr ⟨rfl, rfl⟩⟩

end

/-! ### Expansions inside each other -/

section

variable {s : Statement} {fresh : Collected → String} {beyond : Scope → Expr → Compile Compiled}
  {depth : Nat} {scope : Scope} {c c' : Collected} {o : Compiled} {e : Expr} {root : Root}
  {path path' : List String} {w : Whole} {value : String → Compile Compiled}
  {inner : Scope → Root → List String → Compile Compiled} {id : TableId} {table : Table}

/-- The shape and the table whose rows are produced: their members are compiled. -/
theorem expandBy_yields_of_own (hown : w.IsOwn scope)
    (hvalue : ∀ name, Follows c (value name)
      (compileValueWith s (recompile s fresh beyond depth w.trigger) scope (.member e name)))
    (h : Yields (objectOf value (w.members s)) c o c') :
    Yields (expandBy s fresh (recompile s fresh beyond depth) scope e w) c o c' := by
  have hobject := (compileWith_membersOf_follows hvalue _ c o c' List.prefix_rfl h).2
  cases w with
  | shape =>
    -- The object is placed, too, but it is no whole table.
    have hchain : o.chain? = none := Compiled.chain?_eq_none (objectOf_isBelow h).outputs
    have hexpanded : o.IsExpanded s c' := Compiled.isExpanded_of_chain?_eq_none hchain
    exact yields_bind_iff.mpr ⟨o, c', hobject, recompile_yields_of_isExpanded hexpanded rfl⟩
  | table id table =>
    dsimp only [expandBy]
    rw [if_pos (hown id table rfl)]
    exact hobject

/-- Another table with one row: its fields are compiled, too. -/
theorem expandBy_yields_of_one (hid : id ≠ scope.table) (hone : s.cardinality id = .one)
    (hvalue : ∀ name, Follows c (value name)
      (compileValueWith s (recompile s fresh beyond depth .fields) scope (.member e name)))
    (h : Yields (objectOf value (table.fields.map Field.name)) c o c') :
    Yields (expandBy s fresh (recompile s fresh beyond depth) scope e (.table id table)) c
      { o with tables := o.tables ++ [⟨id, [], scope.beneath, true⟩] } c' := by
  have hobject := (compileWith_membersOf_follows hvalue _ c o c' List.prefix_rfl h).2
  dsimp only [expandBy]
  rw [if_neg hid, hone]
  exact yields_bind_iff.mpr ⟨o, c', hobject, yields_pure_iff.mpr ⟨rfl, rfl⟩⟩

/-- As a value a chain that leads to a whole is what that is expanded to. -/
theorem compileValueWith_yields_of_whole {trigger : Trigger}
    (he : e.ChainsTo s scope c root path path') (hw : s.lookup? path' = some w.toLookup)
    (ht : trigger.allows s scope e (some w) = true)
    (h : Yields (expandBy s fresh (recompile s fresh beyond depth) scope e w) c o c') :
    Yields (compileValueWith s (recompile s fresh beyond (depth + 1) trigger) scope e) c o c' := by
  obtain ⟨type, hchain⟩ := he.compileWith_yields (recompile s fresh beyond (depth + 1) trigger)
  have hwhole := whole?_yields_some (r := .ofValue (chainLeaf root path) type) rfl he.qualify hw
  have hplaced := recompile_yields_of_whole hwhole ht h
  -- The chain itself ranges over no table.
  have htables : o.tables ++ (Compiled.ofValue (chainLeaf root path) type).tables = o.tables :=
    List.append_nil _
  rw [htables] at hplaced
  exact yields_bind_iff.mpr ⟨_, c, hchain, hplaced⟩

/-- Another collection: what the `select` produces is the table whose rows are produced there, so
it is expanded into its fields. -/
theorem expandBy_yields_of_many (he : e.ChainsTo s scope c root path path')
    (hl : s.lookup? path' = some (.table id table)) (hdepth : 1 ≤ path'.length)
    (hid : id ≠ scope.table) (hmany : s.cardinality id = .many)
    (h : Yields (objectOf (fun name => compileChain s (.binding c.bindings.length) [name])
      (table.fields.map Field.name)) (c.bound root path) o c') :
    Yields (expandBy s fresh (recompile s fresh beyond (depth + 1)) scope e (.table id table)) c
      { o with tables := ⟨id, [], scope.beneath, false⟩ :: o.tables } c' := by
  have hparam := he.entered id (fresh c)
  -- Inside, the table is the one in scope, so it is expanded into its fields.
  have hfields : Yields (expandBy s fresh (recompile s fresh beyond depth)
      (scope.entered c id (fresh c)) (.var (fresh c)) (.table id table)) (c.bound root path)
      o c' := by
    refine expandBy_yields_of_own (fun id' table' heq => ?_) (fun name => ?_) h
    · cases heq
      rfl
    · -- The fields lie two steps below the shape, so they are columns.
      have hcolumn : s.isWhole (path' ++ [name]) = false := by
        refine Statement.isWhole_eq_false ?_
        simp only [List.length_append, List.length_singleton]
        omega
      have hfollows : Follows (c.bound root path)
          (compileChain s (.binding c.bindings.length) ([] ++ [name]))
          (compileValueWith s (recompile s fresh beyond depth (Whole.table id table).trigger)
            (scope.entered c id (fresh c)) (.member (.var (fresh c)) name)) :=
        compileChain_follows hparam hcolumn Whole.trigger_allows_none
      exact hfollows
  have hallowed : (Trigger.collection id).allows s (scope.entered c id (fresh c)) (.var (fresh c))
      (some (.table id table)) = true := by
    simp [Trigger.allows, Scope.entered, Range.scope]
  have hbody := compileValueWith_yields_of_whole (w := .table id table) hparam hl hallowed hfields
  have hselect := compileWith_select_var_yields he hl hbody
  rw [hmany] at hselect
  dsimp only [expandBy]
  rw [if_neg hid, hmany]
  exact yields_bind_iff.mpr ⟨c, c, yields_get_iff.mpr ⟨rfl, rfl⟩, hselect⟩

/-- The rounds leave chains alone that lead two steps below the shape. -/
def LeavesColumns (s : Statement) (inner : Scope → Root → List String → Compile Compiled) : Prop :=
  ∀ scope c root path path', qualify c.bindings root path = .ok path' → 2 ≤ path'.length →
    ∀ r c', Yields (inner scope root path) c r c' → Yields (compileChain s root path) c r c'

theorem leavesColumns_compileChain (s : Statement) :
    LeavesColumns s fun _ root path => compileChain s root path :=
  fun _ _ _ _ _ _ _ _ _ h => h

theorem leavesColumns_expandWith : LeavesColumns s (expandWith inner s) :=
  fun _ _ _ _ _ hpath hdepth _ _ h =>
    (expandWith_yields_iff_of_column hpath (Statement.isWhole_eq_false hdepth)).mp h

/-- Below the shape two expansions inside each other are enough: one enters a collection, and one
takes its fields. -/
theorem expandBy_yields_of_table (hinner : LeavesColumns s inner)
    (he : e.ChainsTo s scope c root path path') (hw : s.lookup? path' = some w.toLookup)
    (hdepth : 1 ≤ path'.length) (h : Yields (expandWith inner s scope root path) c o c') :
    Yields (expandBy s fresh (recompile s fresh beyond (depth + 1)) scope e w) c o c' := by
  have hlength : ∀ name, 2 ≤ (path' ++ [name]).length := by
    intro name
    simp only [List.length_append, List.length_singleton]
    omega
  have hcolumns : ∀ (w : Whole) name, Follows c (inner scope root (path ++ [name]))
      (compileValueWith s (recompile s fresh beyond (depth + 1) w.trigger) scope
        (.member e name)) := by
    intro w name c₁ r c₂ hc hr
    have hpath := ((he.mono hc).member name).qualify
    have hr' := hinner scope c₁ root _ _ hpath (hlength name) r c₂ hr
    exact compileChain_follows he (Statement.isWhole_eq_false (hlength name))
      Whole.trigger_allows_none c₁ r c₂ hc hr'
  -- What is expanded is a shape, the table in scope, another row, or another collection.
  obtain hown | ⟨id, table, rfl, hid⟩ := w.isOwn_or_other scope
  · have hobject := (expandWith_yields_iff_of_own he.qualify hw hown).mp h
    exact expandBy_yields_of_own hown (hcolumns w) hobject
  · cases hcardinality : s.cardinality id with
    | one =>
      obtain ⟨o', ho, rfl⟩ := (expandWith_yields_iff_of_one he.qualify hw hid hcardinality).mp h
      exact expandBy_yields_of_one hid hcardinality (hcolumns (.table id table)) ho
    | many =>
      obtain ⟨o', ho, rfl⟩ := (expandWith_yields_iff_of_many he.qualify hw hid hcardinality).mp h
      refine expandBy_yields_of_many he hw hdepth hid hcardinality ?_
      refine (objectOf_follows (fun name c₁ m c₂ hc hm => ?_) _ _ o' c' List.prefix_rfl ho).2
      have hpath := qualify_mono hc (qualify_bound he.qualify [name])
      have hm' := hinner _ c₁ _ _ _ hpath (hlength name) m c₂ hm
      exact ⟨(compileChain_yields hm').1 ▸ List.prefix_rfl, hm'⟩

/-- A member of the shape, or of its row, is a column or a table one step below the shape. -/
theorem expandWith_follows (he : e.ChainsTo s scope c root path [])
    (hw : s.lookup? [] = some w.toLookup) (name : String) :
    Follows c (expandWith (fun _ root path => compileChain s root path) s scope root
      (path ++ [name])) (compileValueWith s (recompile s fresh beyond (depth + 2) w.trigger) scope
        (.member e name)) := by
  intro c₁ r c' hc hr
  have hmember : (Expr.member e name).ChainsTo s scope c₁ root (path ++ [name]) [name] :=
    (he.mono hc).member name
  cases hwhole : s.isWhole [name] with
  | false =>
    have hr' := (expandWith_yields_iff_of_column hmember.qualify hwhole).mp hr
    exact compileChain_follows he hwhole Whole.trigger_allows_none c₁ r c' hc hr'
  | true =>
    obtain ⟨w', hw'⟩ := Statement.isWhole_iff.mp hwhole
    have hopens := (opens_compileChain s).expandWith scope c₁ root _ _ hmember.qualify le_rfl
    refine ⟨(hopens.promises r c' hr).1, ?_⟩
    refine compileValueWith_yields_of_whole hmember hw' (Whole.trigger_allows hw hw') ?_
    exact expandBy_yields_of_table (leavesColumns_compileChain s) hmember hw' le_rfl hr

/-- With the shape or its row on top, three are enough. -/
theorem expandBy_yields (he : e.ChainsTo s scope c root path path')
    (hw : s.lookup? path' = some w.toLookup) (h : Yields (expand s scope root path) c o c') :
    Yields (expandBy s fresh (recompile s fresh beyond (depth + 2)) scope e w) c o c' := by
  cases path' with
  | cons first rest =>
    exact expandBy_yields_of_table leavesColumns_expandWith he hw (Nat.succ_pos _) h
  | nil =>
    have hmembers : ∀ name, Follows c (expandWith (fun _ root path => compileChain s root path) s
        scope root (path ++ [name]))
        (compileValueWith s (recompile s fresh beyond (depth + 2) w.trigger) scope
          (.member e name)) := expandWith_follows he hw
    obtain hown | ⟨id, table, rfl, hid⟩ := w.isOwn_or_other scope
    · have hobject := (expandWith_yields_iff_of_own he.qualify hw hown).mp h
      exact expandBy_yields_of_own hown hmembers hobject
    · -- The row is no collection.
      have hone : s.cardinality id = .one := (Statement.cardinality_of_lookup?_nil hw).2
      obtain ⟨o', ho, rfl⟩ := (expandWith_yields_iff_of_one he.qualify hw hid hone).mp h
      exact expandBy_yields_of_one hid hone hmembers ho

end

/-! ### The compiler that recompiles -/

/-- Three expansions inside each other come to what `expandWhole` does. -/
theorem recompile_expands (s : Statement) (fresh : Collected → String)
    (beyond : Scope → Expr → Compile Compiled) (depth : Nat) :
    Placing.Expands s (recompile s fresh beyond (depth + 3) .mapping) := by
  intro scope e c r c' hr
  -- Both succeed with the same, since every chain that is compiled leads somewhere.
  suffices h : ∃ o c'', Yields (expandWhole s scope r) c' o c'' ∧
      Yields (recompile s fresh beyond (depth + 3) .mapping scope e r) c' o c'' by
    obtain ⟨o, c'', hexpanded, hrecompiled⟩ := h
    exact hrecompiled.trans hexpanded.symm
  have hsame : r.IsExpanded s c' → ∃ o c'', Yields (expandWhole s scope r) c' o c'' ∧
      Yields (recompile s fresh beyond (depth + 3) .mapping scope e r) c' o c'' := fun h =>
    ⟨r, c', h.yields_expandWhole_iff.mpr ⟨rfl, rfl⟩, recompile_yields_of_isExpanded h rfl⟩
  obtain hopened | ⟨rfl, root, path, path', type, he, rfl⟩ :=
    (compile_promises s e scope c r c' hr).2
  · exact hsame hopened.isExpanded
  · cases hwhole : s.isWhole path' with
    | false => exact hsame (Compiled.isExpanded_of_isWhole_eq_false rfl he.qualify hwhole)
    | true =>
      obtain ⟨w, hw⟩ := Statement.isWhole_iff.mp hwhole
      have hfound := whole?_yields_some (r := .ofValue (chainLeaf root path) type) rfl he.qualify hw
      obtain ⟨o, c'', ho, -⟩ := opens_expand s scope c' root path path' he.qualify (Nat.zero_le _)
      refine ⟨_, c'', yields_bind_iff.mpr ⟨_, c', hfound, ?_⟩,
        recompile_yields_of_whole hfound rfl (expandBy_yields he hw ho)⟩
      exact yields_bind_iff.mpr ⟨o, c'', ho, yields_pure_iff.mpr ⟨rfl, rfl⟩⟩

/-- **Expansion by recompilation ends**, in every mapping over every statement and in every scope:
three expansions inside each other are all there is, whatever would come beyond, and then the
compiler that recompiles is `compile`. -/
theorem compileWith_recompile (s : Statement) (fresh : Collected → String)
    (beyond : Scope → Expr → Compile Compiled) (depth : Nat) (scope : Scope) (e : Expr) :
    compileWith s (recompile s fresh beyond (depth + 3) .mapping) scope e = compile s scope e ∧
      compileValueWith s (recompile s fresh beyond (depth + 3) .mapping) scope e =
        compileValue s scope e := by
  have hplace := recompile_expands s fresh beyond depth
  exact ⟨compileWith_eq hplace e scope, compileValueWith_eq hplace scope e⟩

/-- Two are not enough for a school: its shape has collections, and these have fields. -/
example : ((compileValueWith school (recompile school (fun _ => "v")
    (fun _ e => refuse e .strayComma) 2 .mapping) .outermost .row).run.run {}).1.isOk = false := by
  decide

end NestedQuery
