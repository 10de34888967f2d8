import NestedQuery.Proofs.Mapping.Preservation
import NestedQuery.Proofs.Mapping.Typing
import NestedQuery.Proofs.Mapping.Wholes

/-!
# Opened results

A whole table or shape lies at most one step below the shape (`Statement.isWhole_eq_false`). So two
rounds of expansion leave none: from every chain that leads somewhere `expand` succeeds, and no
value of its result is a whole table or shape (`opens_expand`, `Compiled.IsOpened`).

What a round does depends on where the chain leads, and there is one equivalence for each case: a
whole that is the object of its members (`expandWith_yields_iff_of_own`), a table outside its own
scope, with one row or many, and a column.
-/

namespace NestedQuery

open Compile

/-! ### Whole paths -/

namespace Statement

variable {s : Statement} {path : List String}

theorem isWhole_nil (s : Statement) : s.isWhole [] = true := by
  unfold isWhole lookup?
  cases s.isRowShape <;> rfl

/-- Inside a table there is no whole table. -/
theorem lookupIn_cons_ne {id : TableId} {table : Table} {name : String} {rest : List String}
    (w : Whole) : lookupIn id table (name :: rest) ≠ some w.toLookup := by
  intro h
  cases rest with
  | nil =>
    rw [lookupIn] at h
    split at h
    · cases w <;> cases h
    · obtain ⟨field, -, h⟩ := Option.map_eq_some_iff.mp h
      cases w <;> cases h
  | cons next rest => cases h

theorem isWhole_iff : s.isWhole path = true ↔ ∃ w : Whole, s.lookup? path = some w.toLookup := by
  unfold isWhole
  constructor
  · intro h
    split at h
    · exact ⟨.shape, ‹_›⟩
    · exact ⟨.table _ _, ‹_›⟩
    · cases h
  · rintro ⟨_ | _, h⟩ <;> rw [h] <;> rfl

/-- A whole table or shape lies at most one step below the shape. -/
theorem isWhole_eq_false (h : 2 ≤ path.length) : s.isWhole path = false := by
  obtain _ | ⟨name, _ | ⟨next, rest⟩⟩ := path
  · cases h
  · exact absurd h (by simp)
  · refine Bool.eq_false_iff.mpr fun hwhole => ?_
    obtain ⟨w, hw⟩ := isWhole_iff.mp hwhole
    rw [lookup?] at hw
    split at hw
    · exact lookupIn_cons_ne w hw
    · split at hw
      · exact lookupIn_cons_ne w hw
      · cases hw

/-- So what is below a column is no whole table either. -/
theorem isWhole_concat (h : s.isWhole path = false) (name : String) :
    s.isWhole (path ++ [name]) = false := by
  have hne : path ≠ [] := by
    rintro rfl
    rw [isWhole_nil] at h
    cases h
  have hlength : 0 < path.length := List.length_pos_iff.mpr hne
  refine isWhole_eq_false ?_
  rw [List.length_append, List.length_singleton]
  omega

/-- One step below the shape only its members are whole tables. -/
theorem memberTable?_of_lookup? {name : String} {w : Whole}
    (hw : s.lookup? [name] = some w.toLookup) :
    ∃ id, s.memberTable? name = some id ∧ w = .table id (s.source id).table := by
  rw [lookup?] at hw
  split at hw
  · rename_i id hmember
    refine ⟨id, hmember, ?_⟩
    cases w with
    | shape => cases hw
    | table id' table =>
      cases hw
      rfl
  · split at hw
    · exact absurd hw (lookupIn_cons_ne w)
    · cases hw

/-- Where the shape is the primary table's row, its members are the joined tables. -/
theorem any_joins_of_memberTable? {name : String} {id : TableId} (hrow : s.isRowShape = true)
    (h : s.memberTable? name = some id) : (s.joins.any fun j => j.path = name) = true := by
  unfold memberTable? at h
  split at h
  · cases h
  · rename_i hname
    obtain ⟨hlt, hpath, -⟩ := List.findIdx?_eq_some_iff_getElem.mp h
    cases id with
    | zero =>
      have hprimary : s.primary.path = name := eq_of_beq hpath
      rw [← hprimary] at hname
      exact absurd hrow hname
    | succ id =>
      have hid : id < s.joins.length := by
        simpa [sources] using hlt
      have hjoin : s.joins[id].path = name := by
        simpa [sources] using hpath
      exact List.any_eq_true.mpr ⟨s.joins[id], List.getElem_mem hid, decide_eq_true hjoin⟩

/-- The row of the shape is one row. -/
theorem cardinality_of_lookup?_nil {id : TableId} {table : Table}
    (h : s.lookup? [] = some (.table id table)) :
    s.isRowShape = true ∧ s.cardinality id = .one := by
  rw [lookup?] at h
  split at h
  · rename_i hrow
    cases h
    exact ⟨hrow, rfl⟩
  · cases h

end Statement

/-! ### Opened results -/

/-- The value is no whole table or shape: if it is a chain, the chain leads to a column or nowhere.
-/
def Accumulator.IsOpened (s : Statement) (c : Collected) (v : Accumulator Symbol) : Prop :=
  ∀ root path, plainChain? v = some (root, path) →
    ∃ path', qualify c.bindings root path = .ok path' ∧ s.isWhole path' = false

/-- No value of the result is a whole table or shape. -/
def Compiled.IsOpened (s : Statement) (c : Collected) (r : Compiled) : Prop :=
  ∀ o ∈ r.outputs, o.value.IsOpened s c

section

variable {s : Statement} {c c' : Collected} {r r' : Compiled} {v : Accumulator Symbol}

theorem Accumulator.isOpened_of_plainChain? (h : plainChain? v = none) : v.IsOpened s c := by
  intro root path hchain
  rw [h] at hchain
  cases hchain

namespace Compiled

/-- Further bindings do not change what is opened. -/
theorem IsOpened.mono (h : r.IsOpened s c) (hc : c.bindings <+: c'.bindings) :
    r.IsOpened s c' := by
  intro o ho root path hchain
  obtain ⟨path', hpath, hwhole⟩ := h o ho root path hchain
  exact ⟨path', qualify_mono hc hpath, hwhole⟩

theorem isOpened_empty : IsOpened s c {} :=
  fun _ ho => absurd ho List.not_mem_nil

theorem isOpened_ofValue (h : v.IsOpened s c) (type : ValueType) (tables : List MappedTable) :
    (ofValue v type tables).IsOpened s c := by
  intro o ho
  rw [List.mem_singleton.mp ho]
  exact h

theorem IsOpened.append (h : r.IsOpened s c) (h' : r'.IsOpened s c) : (r ++ r').IsOpened s c :=
  List.forall_mem_append.mpr ⟨h, h'⟩

theorem IsOpened.under (h : r.IsOpened s c) (step : Segment) : (r.under step).IsOpened s c :=
  List.forall_mem_map.mpr h

theorem IsOpened.member (h : r.IsOpened s c) (step : Segment) : (r.member step).IsOpened s c := by
  intro o ho
  obtain ⟨o', ho', h'⟩ := List.mem_filterMap.mp ho
  obtain ⟨target, -, rfl⟩ := Option.map_eq_some_iff.mp h'
  exact h o' ho'

/-- Tables do not matter for that. -/
theorem IsOpened.withTables (h : r.IsOpened s c) (tables : List MappedTable) :
    IsOpened s c { r with tables := tables } :=
  h

theorem IsOpened.chain? (h : r.IsOpened s c) {root : Root} {path : List String}
    (hchain : r.chain? = some (root, path)) :
    ∃ path', qualify c.bindings root path = .ok path' ∧ s.isWhole path' = false := by
  obtain ⟨o, ho, hplain⟩ := Option.bind_eq_some_iff.mp hchain
  exact h o (mem_outputs_of_value? ho) root path hplain

end Compiled

/-! ### What chains lead to -/

variable {root : Root} {path path' : List String}

theorem lookup_yields (hpath : qualify c.bindings root path = .ok path') :
    Yields (lookup s root path) c (s.lookup? path') c :=
  yields_lookup_iff.mpr ⟨⟨path', hpath, rfl⟩, rfl⟩

/-- After looking up a chain that leads somewhere, a step goes on with what is there. -/
theorem yields_lookup_bind_iff {α : Type} {a : α} {k : Option Lookup → Compile α}
    (hpath : qualify c.bindings root path = .ok path') :
    Yields (lookup s root path >>= k) c a c' ↔ Yields (k (s.lookup? path')) c a c' := by
  rw [yields_bind_iff]
  constructor
  · rintro ⟨l?, c₁, hl, h⟩
    obtain ⟨rfl, rfl⟩ := hl.unique (lookup_yields hpath)
    exact h
  · exact fun h => ⟨_, c, lookup_yields hpath, h⟩

/-- What leads to a column is no whole table or shape. -/
theorem Compiled.isExpanded_of_isWhole_eq_false (hchain : r.chain? = some (root, path))
    (hpath : qualify c.bindings root path = .ok path') (hwhole : s.isWhole path' = false) :
    r.IsExpanded s c := by
  unfold IsExpanded whole?
  rw [hchain]
  refine (yields_lookup_bind_iff hpath).mpr ?_
  unfold Statement.isWhole at hwhole
  rcases hl : s.lookup? path' with _ | _ | _ | _ | _ <;> rw [hl] at hwhole
  case some.shape | some.table => cases hwhole
  all_goals exact yields_pure_iff.mpr ⟨rfl, rfl⟩

theorem whole?_yields_some (hchain : r.chain? = some (root, path))
    (hpath : qualify c.bindings root path = .ok path') {w : Whole}
    (hw : s.lookup? path' = some w.toLookup) :
    Yields (whole? s r) c (some (w, root, path)) c := by
  unfold whole?
  rw [hchain]
  refine (yields_lookup_bind_iff hpath).mpr ?_
  rw [hw]
  cases w <;> exact yields_pure_iff.mpr ⟨rfl, rfl⟩

theorem Compiled.IsOpened.isExpanded (h : r.IsOpened s c) : r.IsExpanded s c := by
  cases hchain : r.chain? with
  | none => exact Compiled.isExpanded_of_chain?_eq_none hchain
  | some chain =>
    obtain ⟨path', hpath, hwhole⟩ := h.chain? hchain
    exact Compiled.isExpanded_of_isWhole_eq_false hchain hpath hwhole

theorem compileChain_yields_of_qualify (hpath : qualify c.bindings root path = .ok path')
    (tables : List MappedTable) :
    ∃ type, Yields (compileChain s root path tables) c (.ofValue (chainLeaf root path) type tables)
      c := by
  have htype : ∃ type, Yields (typeAt s root path) c type c := by
    have hlookup := lookup_yields (s := s) hpath
    rcases hl : s.lookup? path' with _ | _ | _ | _ | _ <;> rw [hl] at hlookup
    all_goals exact ⟨_, yields_bind_iff.mpr ⟨_, c, hlookup, yields_pure_iff.mpr ⟨rfl, rfl⟩⟩⟩
  obtain ⟨type, htype⟩ := htype
  exact ⟨type, yields_bind_iff.mpr ⟨type, c, htype, yields_pure_iff.mpr ⟨rfl, rfl⟩⟩⟩

theorem Compiled.isOpened_chain (hpath : qualify c.bindings root path = .ok path')
    (hwhole : s.isWhole path' = false) (type : ValueType) (tables : List MappedTable) :
    (ofValue (chainLeaf root path) type tables).IsOpened s c := by
  refine isOpened_ofValue (fun root' path'' hchain => ?_) _ _
  obtain ⟨rfl, rfl⟩ := Prod.mk.inj (Option.some.inj hchain)
  exact ⟨path', hpath, hwhole⟩

end

/-! ### Expansion -/

/-- What has been collected, with one more binding. -/
def Collected.bound (c : Collected) (root : Root) (path : List String) : Collected :=
  { c with bindings := c.bindings ++ [⟨root, path⟩] }

theorem Collected.prefix_bound (c : Collected) (root : Root) (path : List String) :
    c.bindings <+: (c.bound root path).bindings :=
  List.prefix_append _ _

theorem bind_yields (c : Collected) (root : Root) (path : List String) :
    Yields (Compile.bind root path) c c.bindings.length (c.bound root path) :=
  rfl

/-- A new binding stands for the chain that it was made for. -/
theorem qualify_bound {c : Collected} {root : Root} {path path' : List String}
    (hpath : qualify c.bindings root path = .ok path') (rest : List String) :
    qualify (c.bound root path).bindings (.binding c.bindings.length) rest =
      .ok (path' ++ rest) := by
  have hlast : (c.bound root path).bindings[c.bindings.length]? = some ⟨root, path⟩ :=
    List.getElem?_concat_length
  have hlength : (c.bound root path).bindings.length = c.bindings.length + 1 :=
    List.length_append
  have hstart : qualifyWithin (c.bound root path).bindings (c.bindings.length + 1) root
      (path ++ rest) = .ok (path' ++ rest) :=
    qualifyWithin_mono (c.prefix_bound root path) le_rfl (qualify_append hpath rest)
  rw [qualify, hlength, qualifyWithin, hlast]
  exact hstart

/-- The names of the members of a whole table or shape. -/
def Whole.members (s : Statement) : Whole → List String
  | .shape => s.members
  | .table _ t => t.fields.map Field.name

/-- The shape, and the table whose rows are produced in the scope. -/
def Whole.IsOwn (scope : Scope) (w : Whole) : Prop :=
  ∀ id table, w = .table id table → id = scope.table

theorem Whole.isOwn_or_other (scope : Scope) (w : Whole) :
    w.IsOwn scope ∨ ∃ id table, w = .table id table ∧ id ≠ scope.table := by
  cases w with
  | shape => exact .inl nofun
  | table id table =>
    by_cases hid : id = scope.table
    · refine .inl fun id' table' heq => ?_
      cases heq
      exact hid
    · exact .inr ⟨id, table, rfl, hid⟩

section

variable {s : Statement} {scope : Scope} {inner : Scope → Root → List String → Compile Compiled}
  {root : Root} {path path' : List String} {c c' : Collected} {r : Compiled}

/-- The shape and the table whose rows are produced are the objects of their members. -/
theorem expandWith_yields_iff_of_own {w : Whole} (hpath : qualify c.bindings root path = .ok path')
    (hw : s.lookup? path' = some w.toLookup) (hown : w.IsOwn scope) :
    Yields (expandWith inner s scope root path) c r c' ↔
      Yields (objectOf (fun name => inner scope root (path ++ [name])) (w.members s)) c r c' := by
  refine (yields_lookup_bind_iff hpath).trans ?_
  rw [hw]
  cases w with
  | shape => rfl
  | table id table =>
    dsimp only [Whole.toLookup]
    rw [if_pos (hown id table rfl)]
    rfl

/-- A chain to a column is left as it is. -/
theorem expandWith_yields_iff_of_column (hpath : qualify c.bindings root path = .ok path')
    (hcolumn : s.isWhole path' = false) :
    Yields (expandWith inner s scope root path) c r c' ↔
      Yields (compileChain s root path) c r c' := by
  refine (yields_lookup_bind_iff hpath).trans ?_
  unfold Statement.isWhole at hcolumn
  rcases hl : s.lookup? path' with _ | _ | _ | _ | _ <;> rw [hl] at hcolumn
  case some.shape | some.table => cases hcolumn

variable {id : TableId} {table : Table}

/-- Another table with one row is the object of its members, too, and is ranged over. -/
theorem expandWith_yields_iff_of_one (hpath : qualify c.bindings root path = .ok path')
    (hl : s.lookup? path' = some (.table id table)) (hid : id ≠ scope.table)
    (hone : s.cardinality id = .one) :
    Yields (expandWith inner s scope root path) c r c' ↔ ∃ o,
      Yields (objectOf (fun name => inner scope root (path ++ [name]))
        (table.fields.map Field.name)) c o c' ∧
      { o with tables := o.tables ++ [⟨id, [], scope.beneath, true⟩] } = r := by
  refine (yields_lookup_bind_iff hpath).trans ?_
  rw [hl]
  dsimp only
  rw [if_neg hid, hone]
  simp only [yields_bind_iff, yields_pure_iff]
  constructor
  · rintro ⟨o, c₁, ho, hr, rfl⟩
    exact ⟨o, ho, hr⟩
  · exact fun ⟨o, ho, hr⟩ => ⟨o, c', ho, hr, rfl⟩

/-- Another collection is entered by a new binding, from which its members are compiled. -/
theorem expandWith_yields_iff_of_many (hpath : qualify c.bindings root path = .ok path')
    (hl : s.lookup? path' = some (.table id table)) (hid : id ≠ scope.table)
    (hmany : s.cardinality id = .many) :
    Yields (expandWith inner s scope root path) c r c' ↔ ∃ o,
      Yields (objectOf (fun name => inner { scope with table := id } (.binding c.bindings.length)
        [name]) (table.fields.map Field.name)) (c.bound root path) o c' ∧
      { o with tables := ⟨id, [], scope.beneath, false⟩ :: o.tables } = r := by
  refine (yields_lookup_bind_iff hpath).trans ?_
  rw [hl]
  dsimp only
  rw [if_neg hid, hmany]
  simp only [yields_bind_iff, yields_pure_iff]
  constructor
  · rintro ⟨b, c₁, hb, o, c₂, ho, hr, rfl⟩
    obtain ⟨rfl, rfl⟩ := hb.unique (bind_yields c root path)
    exact ⟨o, ho, hr⟩
  · exact fun ⟨o, ho, hr⟩ => ⟨_, _, bind_yields c root path, o, c', ho, hr, rfl⟩

end

/-! ### Rounds of expansion -/

/-- From `c` the step yields an opened result, and the bindings before it are there still. -/
def Opens (s : Statement) (c : Collected) (x : Compile Compiled) : Prop :=
  ∃ r c', Yields x c r c' ∧ c.bindings <+: c'.bindings ∧ r.IsOpened s c'

/-- The steps open every chain that leads at least `depth` steps below the shape. -/
def OpensBelow (s : Statement) (depth : Nat)
    (inner : Scope → Root → List String → Compile Compiled) : Prop :=
  ∀ scope c root path path', qualify c.bindings root path = .ok path' → depth ≤ path'.length →
    Opens s c (inner scope root path)

section

variable {s : Statement} {c : Collected} {root : Root} {path path' : List String}

theorem compileChain_opens (hpath : qualify c.bindings root path = .ok path')
    (hwhole : s.isWhole path' = false) : Opens s c (compileChain s root path) := by
  obtain ⟨type, h⟩ := compileChain_yields_of_qualify (s := s) hpath []
  exact ⟨_, c, h, List.prefix_rfl, Compiled.isOpened_chain hpath hwhole type []⟩

theorem objectOf_opens {value : String → Compile Compiled}
    (h : ∀ name c₁, c.bindings <+: c₁.bindings → Opens s c₁ (value name)) (names : List String) :
    Opens s c (objectOf value names) := by
  induction names generalizing c with
  | nil => exact ⟨{}, c, yields_pure_iff.mpr ⟨rfl, rfl⟩, List.prefix_rfl, Compiled.isOpened_empty⟩
  | cons name names ih =>
    obtain ⟨r, c₁, hr, hc₁, hopened⟩ := h name c List.prefix_rfl
    obtain ⟨rest, c₂, hrest, hc₂, hopened'⟩ := ih fun name c₂ hc₂ => h name c₂ (hc₁.trans hc₂)
    refine ⟨r.under (.field name) ++ rest, c₂, ?_, hc₁.trans hc₂,
      ((hopened.mono hc₂).under _).append hopened'⟩
    exact yields_bind_iff.mpr ⟨r, c₁, hr, yields_bind_iff.mpr ⟨rest, c₂, hrest,
      yields_pure_iff.mpr ⟨rfl, rfl⟩⟩⟩

/-- The members of what a chain leads to lie one step further down, whatever has been collected
before they are compiled. -/
theorem OpensBelow.objectOf {depth : Nat} {inner : Scope → Root → List String → Compile Compiled}
    (h : OpensBelow s (depth + 1) inner) (hpath : qualify c.bindings root path = .ok path')
    (hdepth : depth ≤ path'.length) (scope : Scope) (names : List String) :
    Opens s c (objectOf (fun name => inner scope root (path ++ [name])) names) := by
  refine objectOf_opens (fun name c₁ hc₁ => ?_) names
  refine h scope c₁ root _ _ (qualify_append (qualify_mono hc₁ hpath) [name]) ?_
  rw [List.length_append, List.length_singleton]
  omega

/-- One more round of expansion opens chains that are one step shorter. -/
theorem OpensBelow.expandWith {depth : Nat}
    {inner : Scope → Root → List String → Compile Compiled} (h : OpensBelow s (depth + 1) inner) :
    OpensBelow s depth (expandWith inner s) := by
  intro scope c root path path' hpath hdepth
  have hmembers := h.objectOf hpath hdepth
  cases hwhole : s.isWhole path' with
  | false =>
    obtain ⟨r, c', hr, hopened⟩ := compileChain_opens hpath hwhole
    exact ⟨r, c', (expandWith_yields_iff_of_column hpath hwhole).mpr hr, hopened⟩
  | true =>
    obtain ⟨w, hw⟩ := Statement.isWhole_iff.mp hwhole
    obtain hown | ⟨id, table, rfl, hid⟩ := w.isOwn_or_other scope
    · obtain ⟨r, c', hr, hopened⟩ := hmembers scope (w.members s)
      exact ⟨r, c', (expandWith_yields_iff_of_own hpath hw hown).mpr hr, hopened⟩
    · cases hcardinality : s.cardinality id with
      | one =>
        obtain ⟨o, c', ho, hc', hopened⟩ := hmembers scope (table.fields.map Field.name)
        exact ⟨_, c', (expandWith_yields_iff_of_one hpath hw hid hcardinality).mpr ⟨o, ho, rfl⟩,
          hc', hopened.withTables _⟩
      | many =>
        -- The new binding leads where the chain does.
        have hbound := qualify_bound hpath []
        rw [List.append_nil] at hbound
        obtain ⟨o, c', ho, hc', hopened⟩ := h.objectOf hbound hdepth { scope with table := id }
          (table.fields.map Field.name)
        exact ⟨_, c', (expandWith_yields_iff_of_many hpath hw hid hcardinality).mpr ⟨o, ho, rfl⟩,
          (c.prefix_bound root path).trans hc', hopened.withTables _⟩

/-- Chains that lead two steps below the shape are open. -/
theorem opens_compileChain (s : Statement) :
    OpensBelow s 2 fun _ root path => compileChain s root path :=
  fun _ _ _ _ _ hpath hdepth => compileChain_opens hpath (Statement.isWhole_eq_false hdepth)

/-- **Two rounds open whatever a chain leads to.** -/
theorem opens_expand (s : Statement) : OpensBelow s 0 (expand s) :=
  (opens_compileChain s).expandWith.expandWith

end

end NestedQuery
