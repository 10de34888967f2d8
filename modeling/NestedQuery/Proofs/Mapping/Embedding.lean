import Mathlib.Order.Monotone.Basic
import NestedQuery.Proofs.Accumulator.Traversal
import NestedQuery.Proofs.Mapping.Values

/-!
# Statements inside larger statements

A statement with more tables and more parameters holds a smaller one if the tables of the smaller
one stand in it in the same order, under other places, and its members other than a hidden one lead
to the same tables (`Statement.Extends`). An `Embedding` says where the tables and parameters stand
in the larger statement, and `embed` moves there what is compiled over the smaller one.

Paths that do not start with the hidden member lead to the same place in both
(`Statement.Extends.lookup?`), so leaves are resolved to the same columns there
(`Statement.Extends.resolveTree`).
-/

namespace NestedQuery

/-- Where the tables and parameters of a statement stand in a larger one. The tables keep their
order, and the primary table stays. -/
structure Embedding where
  /-- The place of a table. -/
  table : TableId → TableId
  /-- The place of a parameter. -/
  param : ParamId → ParamId
  /-- Tables keep their order. -/
  strictMono : StrictMono table
  /-- The primary table stays. -/
  table_zero : table 0 = 0

theorem Embedding.table_inj (f : Embedding) {t u : TableId} : f.table t = f.table u ↔ t = u :=
  f.strictMono.injective.eq_iff

/-! ### Compiled results -/

/-- The leaf in the larger statement. -/
def Symbol.embed (f : Embedding) : Symbol → Symbol
  | .param id => .param (f.param id)
  | .column root path into function => .column root path (into.map f.table) function

/-- The mapped table in the larger statement. -/
def MappedTable.embed (f : Embedding) (m : MappedTable) : MappedTable :=
  { m with table := f.table m.table }

/-- The output with every leaf replaced. -/
def Output.map {α β : Type} (g : α → β) (o : Output α) : Output β :=
  { o with value := o.value.map g }

/-- The result in the larger statement. -/
def Compiled.embed (f : Embedding) (c : Compiled) : Compiled :=
  ⟨c.outputs.map (Output.map (Symbol.embed f)), c.tables.map (MappedTable.embed f)⟩

/-- The operand in the larger statement. -/
def Operand.embed (f : Embedding) (o : Operand) : Operand :=
  ⟨o.value.map (Symbol.embed f), o.type, o.tables.map (MappedTable.embed f)⟩

/-- The branches in the larger statement. -/
def CompiledBranches.embed (f : Embedding) (bs : CompiledBranches) : CompiledBranches :=
  ⟨Accumulator.mapBranches (Symbol.embed f) bs.branches, bs.type?,
    bs.tables.map (MappedTable.embed f)⟩

/-- The scope in the larger statement. -/
def Scope.embed (f : Embedding) (scope : Scope) : Scope :=
  { scope with table := f.table scope.table }

/-- The range in the larger statement. -/
def Range.embed (f : Embedding) (r : Range) : Range :=
  ⟨r.binding, r.table?.map f.table, r.tables.map (MappedTable.embed f)⟩

/-- The column in the larger statement. -/
def ColumnRef.embed (f : Embedding) (c : ColumnRef) : ColumnRef :=
  ⟨f.table c.table, NestedQuery.tableAlias (f.table c.table), c.column⟩

/-- The resolved leaf in the larger statement. -/
def Cell.embed (f : Embedding) : Cell → Cell
  | .param id => .param (f.param id)
  | .column c r function type => .column (c.embed f) (r.embed f) function type

/-- The term in the larger statement. -/
def Term.embed (f : Embedding) (t : Term) : Term :=
  Accumulator.map (Cell.embed f) t

/-- What a path stands for in the larger statement. -/
def Lookup.embed (f : Embedding) : Lookup → Lookup
  | .shape => .shape
  | .table id t => .table (f.table id) t
  | .column id t field => .column (f.table id) t field
  | .rowId id t => .rowId (f.table id) t

/-- The whole table or shape in the larger statement. -/
def Whole.embed (f : Embedding) : Whole → Whole
  | .shape => .shape
  | .table id t => .table (f.table id) t

theorem plainChain?_map_embed (f : Embedding) (v : Accumulator Symbol) :
    plainChain? (v.map (Symbol.embed f)) = plainChain? v := by
  cases v with
  | leaf a =>
    cases a with
    | param id => rfl
    | column root path into function => cases into <;> cases function <;> rfl
  | _ => rfl

namespace Compiled

variable (f : Embedding)

theorem value?_embed (c : Compiled) :
    (c.embed f).value? = c.value?.map (Output.map (Symbol.embed f)) := by
  obtain ⟨outputs, tables⟩ := c
  match outputs with
  | [] => rfl
  | [o] =>
    show (if o.target = [] then some (o.map (Symbol.embed f)) else none) =
      (if o.target = [] then some o else none).map (Output.map (Symbol.embed f))
    split <;> rfl
  | _ :: _ :: _ => rfl

theorem chain?_embed (c : Compiled) : (c.embed f).chain? = c.chain? := by
  rw [chain?, value?_embed, Option.bind_map, chain?]
  exact congrArg c.value?.bind (funext fun o => plainChain?_map_embed f o.value)

theorem under_embed (c : Compiled) (s : Segment) :
    (c.under s).embed f = (c.embed f).under s := by
  simp only [embed, under, List.map_map, mk.injEq]
  exact ⟨rfl, rfl⟩

theorem member_embed (c : Compiled) (s : Segment) :
    (c.member s).embed f = (c.embed f).member s := by
  simp only [embed, member, List.map_filterMap, List.filterMap_map, mk.injEq]
  constructor
  · refine List.filterMap_congr fun o _ => ?_
    show _ = (Target.after? s o.target).map _
    rw [Option.map_map]
    rfl
  · refine List.filterMap_congr fun m _ => ?_
    show _ = (Target.after? s m.target).map _
    rw [Option.map_map]
    rfl

theorem append_embed (c d : Compiled) : (c ++ d).embed f = c.embed f ++ d.embed f := by
  show Compiled.mk ((c.outputs ++ d.outputs).map _) ((c.tables ++ d.tables).map _) =
    ⟨_ ++ _, _ ++ _⟩
  rw [List.map_append, List.map_append]
  rfl

end Compiled

/-- Folding into a table is folding into its place in the larger statement. -/
theorem embed_foldedInto (f : Embedding) (t : TableId) (v : Accumulator Symbol) :
    (v.map (Symbol.foldedInto t)).map (Symbol.embed f) =
      (v.map (Symbol.embed f)).map (Symbol.foldedInto (f.table t)) := by
  rw [Accumulator.map_map, Accumulator.map_map]
  refine congrArg (fun g => v.map g) (funext fun a => ?_)
  cases a with
  | param id => rfl
  | column root path into function => cases into <;> rfl

theorem aggregation_embed (f : Embedding) (v : Accumulator Symbol) :
    (v.map (Symbol.embed f)).aggregation Symbol.isParam = v.aggregation Symbol.isParam := by
  rw [Accumulator.aggregation, Accumulator.aggregation?_map, Accumulator.aggregation]
  refine congrArg (fun p => (v.aggregation? p).getD .none) (funext fun a => ?_)
  cases a <;> rfl

theorem Term.columns_embed (f : Embedding) (t : Term) :
    Term.columns (t.embed f) = (Term.columns t).map (ColumnRef.embed f) := by
  rw [Term.columns, Term.embed, Accumulator.leaves_map, List.filterMap_map, Term.columns,
    List.map_filterMap]
  exact List.filterMap_congr fun a _ => by cases a <;> rfl

/-! ### Visible paths -/

/-- The path starts with a member of the shape, not with the hidden one. -/
def IsVisiblePath (hidden : String) (path : List String) : Prop :=
  path ≠ [] ∧ path.head? ≠ some hidden

/-- The chain does not start with the hidden member of the row. -/
def IsVisibleChain (hidden : String) (root : Root) (path : List String) : Prop :=
  root = .row → IsVisiblePath hidden path

/-- The leaf is no chain that starts with the hidden member of the row. -/
def Symbol.IsVisible (hidden : String) : Symbol → Prop
  | .param _ => True
  | .column root path _ _ => IsVisibleChain hidden root path

/-- No leaf is a chain that starts with the hidden member of the row. -/
def Accumulator.IsVisible (hidden : String) (v : Accumulator Symbol) : Prop :=
  ∀ a ∈ v.leaves, a.IsVisible hidden

/-- No chain that a parameter stands for starts with the hidden member of the row. -/
def AreVisible (hidden : String) (bindings : List Binding) : Prop :=
  ∀ b ∈ bindings, IsVisibleChain hidden b.root b.path

section

variable {hidden : String} {path : List String}

theorem IsVisiblePath.append (h : IsVisiblePath hidden path) (rest : List String) :
    IsVisiblePath hidden (path ++ rest) := by
  cases path with
  | nil => exact absurd rfl h.1
  | cons name path => exact ⟨List.cons_ne_nil _ _, h.2⟩

theorem isVisiblePath_cons {name : String} (h : name ≠ hidden) (rest : List String) :
    IsVisiblePath hidden (name :: rest) :=
  ⟨List.cons_ne_nil _ _, fun heq => h (Option.some.inj heq)⟩

theorem isVisibleChain_binding (id : BindingId) (path : List String) :
    IsVisibleChain hidden (.binding id) path := by
  rintro ⟨⟩

theorem IsVisibleChain.append {root : Root} (h : IsVisibleChain hidden root path)
    (rest : List String) : IsVisibleChain hidden root (path ++ rest) :=
  fun hroot => (h hroot).append rest

/-- Bindings of visible chains lead from visible chains to visible paths. -/
theorem isVisiblePath_of_qualifyWithin {bindings : List Binding}
    (hbindings : AreVisible hidden bindings) {steps : Nat} {root : Root} {path' : List String}
    (hchain : IsVisibleChain hidden root path)
    (h : qualifyWithin bindings steps root path = .ok path') : IsVisiblePath hidden path' := by
  induction steps generalizing root path with
  | zero => cases h
  | succ steps ih =>
    cases root with
    | row =>
      obtain rfl := Except.ok.inj h
      exact hchain rfl
    | binding id =>
      rw [qualifyWithin] at h
      split at h
      · next b hb => exact ih ((hbindings b (List.mem_of_getElem? hb)).append path) h
      · cases h

theorem isVisiblePath_of_qualify {bindings : List Binding} (hbindings : AreVisible hidden bindings)
    {root : Root} {path' : List String} (hchain : IsVisibleChain hidden root path)
    (h : qualify bindings root path = .ok path') : IsVisiblePath hidden path' :=
  isVisiblePath_of_qualifyWithin hbindings hchain h

end

/-! ### Larger statements -/

/-- The statement `s'` holds `s`, apart from its conditions: the tables of `s` stand in it in the
same order, and no other member than the hidden one leads to another table. -/
structure Statement.Extends (f : Embedding) (hidden : String) (s s' : Statement) : Prop where
  /-- The primary table is the same. -/
  primary : s'.primary = s.primary
  /-- The tables are the same. -/
  source : ∀ t, s'.source (f.table t) = s.source t
  /-- They belong to the rows in the same way. -/
  cardinality : ∀ t, s'.cardinality (f.table t) = s.cardinality t
  /-- Members lead to the same tables. -/
  memberTable? : ∀ name, name ≠ hidden → s'.memberTable? name = (s.memberTable? name).map f.table
  /-- The hidden member leads to none of these. -/
  path_ne : ∀ t, s.path t ≠ hidden

/-- A path with a member stands for no whole shape. -/
theorem Statement.lookup?_ne_shape (s : Statement) {path : List String} (h : path ≠ []) :
    s.lookup? path ≠ some .shape := by
  cases path with
  | nil => exact absurd rfl h
  | cons name rest =>
    intro hshape
    rw [Statement.lookup?] at hshape
    split at hshape
    · cases Statement.lookupIn_table? hshape
    · split at hshape
      · cases Statement.lookupIn_table? hshape
      · cases hshape

namespace Statement.Extends

variable {f : Embedding} {hidden : String} {s s' : Statement}

theorem isRowShape (h : Extends f hidden s s') : s'.isRowShape = s.isRowShape := by
  rw [Statement.isRowShape, h.primary, Statement.isRowShape]

theorem path (h : Extends f hidden s s') (t : TableId) : s'.path (f.table t) = s.path t := by
  rw [Statement.path, h.source, Statement.path]

theorem lookupIn_embed (f : Embedding) (id : TableId) (table : Table) (path : List String) :
    lookupIn (f.table id) table path = (lookupIn id table path).map (Lookup.embed f) := by
  match path with
  | [] => rfl
  | [name] =>
    rw [lookupIn, lookupIn]
    split
    · rfl
    · rw [Option.map_map]
      rfl
  | _ :: _ :: _ => rfl

/-- **Paths lead to the same place** unless they start with the hidden member. -/
theorem lookup? (h : Extends f hidden s s') {path : List String}
    (hpath : path.head? ≠ some hidden) :
    s'.lookup? path = (s.lookup? path).map (Lookup.embed f) := by
  cases path with
  | nil =>
    rw [Statement.lookup?, Statement.lookup?, h.isRowShape, h.primary]
    split
    · rw [Option.map_some, Lookup.embed, f.table_zero]
    · rfl
  | cons name rest =>
    have hname : name ≠ hidden := fun heq => hpath (congrArg some heq)
    rw [Statement.lookup?, Statement.lookup?, h.memberTable? name hname]
    cases s.memberTable? name with
    | some id =>
      show lookupIn (f.table id) _ rest = _
      rw [h.source, lookupIn_embed]
    | none =>
      show (if s'.isRowShape then lookupIn 0 s'.primary.table (name :: rest) else none) = _
      rw [h.isRowShape, h.primary, apply_ite (Option.map (Lookup.embed f)), ← lookupIn_embed,
        f.table_zero]
      rfl

/-! ### Resolution -/

variable {naming : Naming} {bindings : List Binding}

theorem columnAt (h : Extends f hidden s s') (naming : Naming) (bindings : List Binding)
    {path : List String} (hpath : IsVisiblePath hidden path) :
    Resolver.columnAt ⟨s', naming, bindings⟩ path =
      Prod.map (ColumnRef.embed f) id <$> Resolver.columnAt ⟨s, naming, bindings⟩ path := by
  unfold Resolver.columnAt
  dsimp only
  rw [h.lookup? hpath.2]
  rcases s.lookup? path with _ | _ | _ | _ | _ <;> rfl

theorem resolve (h : Extends f hidden s s') (hbindings : AreVisible hidden bindings) {a : Symbol}
    (ha : a.IsVisible hidden) :
    Resolver.resolve ⟨s', naming, bindings⟩ (a.embed f) =
      Cell.embed f <$> Resolver.resolve ⟨s, naming, bindings⟩ a := by
  cases a with
  | param id => rfl
  | column root path into function =>
    rw [Symbol.embed, Resolver.resolve, Resolver.resolve]
    dsimp only
    cases hpath : qualify bindings root path with
    | error e => rfl
    | ok path' =>
      have hcolumn := h.columnAt naming bindings
        (isVisiblePath_of_qualify hbindings ha hpath)
      show (Resolver.columnAt ⟨s', naming, bindings⟩ path' >>= _) =
        Cell.embed f <$> (Resolver.columnAt ⟨s, naming, bindings⟩ path' >>= _)
      rw [hcolumn]
      cases Resolver.columnAt ⟨s, naming, bindings⟩ path' with
      | error e => rfl
      | ok column => cases into <;> rfl

/-- **Leaves are resolved to the same columns.** -/
theorem resolveTree (h : Extends f hidden s s') (hbindings : AreVisible hidden bindings)
    {v : Accumulator Symbol} (hv : v.IsVisible hidden) :
    Resolver.resolveTree ⟨s', naming, bindings⟩ (v.map (Symbol.embed f)) =
      Term.embed f <$> Resolver.resolveTree ⟨s, naming, bindings⟩ v :=
  Accumulator.traverse_map false v fun x hx =>
    h.resolve hbindings (hv x.1 (List.mem_map_of_mem hx))

end Statement.Extends

end NestedQuery
