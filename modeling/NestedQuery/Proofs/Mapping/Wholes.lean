import NestedQuery.Proofs.Mapping.Renaming

/-!
# Whole tables are expanded once

Where a value may have members, a whole table or shape is put in place by its members. A result that
is put together from members is below steps everywhere (`Compiled.IsBelow`), so it is no chain, and
what has been expanded is no whole table or shape any more (`expandWhole_isExpanded`): to expand it
again changes nothing (`expanded_expanded_sameYields`).

What is counted and what a `select` ranges over may be a whole table, and other steps take a value.
Either take one thing, and what was expanded is several (`TakesSource.yields_of_expanded`), so it
does not matter to a step that takes a value whether its operand is expanded first
(`TakesValue.expanded_sameYields`). A `select` puts in place what its body comes to over its range
(`compile_select_yields_iff`).
-/

namespace NestedQuery

open Compile

/-! ### Results below steps -/

namespace Compiled

variable {r r' : Compiled}

/-- Every value and every table of the result lands below a step. -/
structure IsBelow (r : Compiled) : Prop where
  /-- Every value does. -/
  outputs : ∀ o ∈ r.outputs, o.target ≠ []
  /-- Every table does. -/
  tables : ∀ t ∈ r.tables, t.target ≠ []

theorem isBelow_empty : IsBelow {} :=
  ⟨nofun, nofun⟩

theorem isBelow_under (r : Compiled) (step : Segment) : (r.under step).IsBelow := by
  refine ⟨fun o ho => ?_, fun t ht => ?_⟩
  · obtain ⟨o', -, rfl⟩ := List.mem_map.mp ho
    exact List.cons_ne_nil _ _
  · obtain ⟨t', -, rfl⟩ := List.mem_map.mp ht
    exact List.cons_ne_nil _ _

theorem IsBelow.append (h : r.IsBelow) (h' : r'.IsBelow) : (r ++ r').IsBelow :=
  ⟨List.forall_mem_append.mpr ⟨h.outputs, h'.outputs⟩,
    List.forall_mem_append.mpr ⟨h.tables, h'.tables⟩⟩

end Compiled

section

variable {s : Statement} {scope : Scope} {whole : Expr} {r r' : Compiled} {c c' : Collected}

theorem objectOf_isBelow {value : String → Compile Compiled} {names : List String}
    (h : Yields (objectOf value names) c r c') : r.IsBelow := by
  induction names generalizing r c c' with
  | nil =>
    obtain ⟨rfl, -⟩ := yields_pure_iff.mp h
    exact Compiled.isBelow_empty
  | cons name names ih =>
    obtain ⟨v, c₁, -, h⟩ := yields_bind_iff.mp h
    obtain ⟨rest, c₂, hrest, h⟩ := yields_bind_iff.mp h
    obtain ⟨rfl, -⟩ := yields_pure_iff.mp h
    exact (v.isBelow_under _).append (ih hrest)

theorem compileItems_isBelow {index : Nat} {items : List Expr}
    (h : Yields (compileItems s scope whole index items) c r c') : r.IsBelow := by
  induction items generalizing index r c c' with
  | nil =>
    obtain ⟨rfl, -⟩ := yields_pure_iff.mp h
    exact Compiled.isBelow_empty
  | cons e es ih =>
    obtain ⟨v, c₁, -, h⟩ := yields_bind_iff.mp h
    obtain ⟨rest, c₂, hrest, h⟩ := yields_bind_iff.mp h
    obtain ⟨rfl, -⟩ := yields_pure_iff.mp h
    exact (v.isBelow_under _).append (ih hrest)

theorem compileMembers_isBelow {members : List (String × Expr)}
    (h : Yields (compileMembers s scope whole members) c r c') : r.IsBelow := by
  induction members generalizing r c c' with
  | nil =>
    obtain ⟨rfl, -⟩ := yields_pure_iff.mp h
    exact Compiled.isBelow_empty
  | cons member es ih =>
    obtain ⟨v, c₁, -, h⟩ := yields_bind_iff.mp h
    obtain ⟨rest, c₂, hrest, h⟩ := yields_bind_iff.mp h
    obtain ⟨rfl, -⟩ := yields_pure_iff.mp h
    exact (v.isBelow_under _).append (ih hrest)

/-! ### What is expanded -/

/-- The result is no whole table or shape. -/
def Compiled.IsExpanded (s : Statement) (c : Collected) (r : Compiled) : Prop :=
  Yields (whole? s r) c none c

theorem Compiled.isExpanded_of_chain?_eq_none (h : r.chain? = none) : r.IsExpanded s c := by
  rw [IsExpanded, whole?, h]
  exact yields_pure_iff.mpr ⟨rfl, rfl⟩

/-- Tables do not matter for that. -/
theorem Compiled.IsExpanded.withTables (h : r.IsExpanded s c) (tables : List MappedTable) :
    Compiled.IsExpanded s c { r with tables := tables } :=
  h

/-- What is no whole table or shape is left as it is. -/
theorem Compiled.IsExpanded.yields_expandWhole_iff (h : r.IsExpanded s c) :
    Yields (expandWhole s scope r) c r' c' ↔ r = r' ∧ c = c' := by
  rw [expandWhole, yields_bind_iff]
  constructor
  · rintro ⟨w?, c₁, hw, hr⟩
    obtain ⟨rfl, rfl⟩ := h.unique hw
    exact yields_pure_iff.mp hr
  · exact fun heq => ⟨none, c, h, yields_pure_iff.mpr heq⟩

/-- The members of a whole table or shape are no single value. -/
theorem expandWith_value? {inner : Scope → Root → List String → Compile Compiled} {root : Root}
    {path path' : List String} {w : Whole} (hpath : qualify c.bindings root path = .ok path')
    (hwhole : s.lookup? path' = some w.toLookup)
    (h : Yields (expandWith inner s scope root path) c r c') : r.value? = none := by
  obtain ⟨l?, c₁, hl, h⟩ := yields_bind_iff.mp h
  obtain ⟨rfl, rfl⟩ := hl.unique (yields_lookup_iff.mpr ⟨⟨path', hpath, hwhole⟩, rfl⟩)
  cases w with
  | shape => exact Compiled.value?_eq_none (objectOf_isBelow h).outputs
  | table id table =>
    dsimp only [Whole.toLookup] at h
    split at h
    · exact Compiled.value?_eq_none (objectOf_isBelow h).outputs
    · -- The table itself is added to what its members range over.
      split at h
      · obtain ⟨v, c₂, hv, h⟩ := yields_bind_iff.mp h
        obtain ⟨rfl, -⟩ := yields_pure_iff.mp h
        exact Compiled.value?_eq_none (objectOf_isBelow hv).outputs
      · obtain ⟨b, c₂, -, h⟩ := yields_bind_iff.mp h
        obtain ⟨v, c₃, hv, h⟩ := yields_bind_iff.mp h
        obtain ⟨rfl, -⟩ := yields_pure_iff.mp h
        exact Compiled.value?_eq_none (objectOf_isBelow hv).outputs

/-- What a whole table or shape is expanded to is no single value. -/
theorem expandWhole_value? {w : Whole} {root : Root} {path : List String}
    (hw : Yields (whole? s r) c (some (w, root, path)) c)
    (h : Yields (expandWhole s scope r) c r' c') : r'.value? = none := by
  obtain ⟨w?, c₁, hw', h⟩ := yields_bind_iff.mp h
  obtain ⟨rfl, rfl⟩ := hw.unique hw'
  obtain ⟨-, path', hpath, hlookup⟩ := (whole?_yields hw).2 _ _ _ rfl
  obtain ⟨expanded, c₂, hexpanded, h⟩ := yields_bind_iff.mp h
  obtain ⟨rfl, -⟩ := yields_pure_iff.mp h
  have hvalue : expanded.value? = none := expandWith_value? hpath hlookup hexpanded
  exact hvalue

/-- **What has been expanded** is no whole table or shape. -/
theorem expandWhole_isExpanded (h : Yields (expandWhole s scope r) c r' c') :
    r'.IsExpanded s c' := by
  obtain ⟨w?, c₁, hw, hr⟩ := yields_bind_iff.mp h
  obtain ⟨rfl, -⟩ := whole?_yields hw
  rcases w? with _ | ⟨w, root, path⟩
  · obtain ⟨rfl, rfl⟩ := yields_pure_iff.mp hr
    exact hw
  · refine Compiled.isExpanded_of_chain?_eq_none ?_
    rw [Compiled.chain?, expandWhole_value? hw h, Option.bind_none]

/-- **Expanding twice is expanding once.** -/
theorem expanded_expanded_sameYields (x : Compile Compiled) :
    SameYields ((x >>= expandWhole s scope) >>= expandWhole s scope)
      (x >>= expandWhole s scope) := by
  intro c r c'
  rw [yields_bind_iff]
  constructor
  · rintro ⟨r₁, c₁, h₁, h⟩
    obtain ⟨r₀, c₀, -, hr₁⟩ := yields_bind_iff.mp h₁
    obtain ⟨rfl, rfl⟩ := (expandWhole_isExpanded hr₁).yields_expandWhole_iff.mp h
    exact h₁
  · intro h
    obtain ⟨r₀, c₀, -, hr⟩ := yields_bind_iff.mp h
    exact ⟨r, c', h, (expandWhole_isExpanded hr).yields_expandWhole_iff.mpr ⟨rfl, rfl⟩⟩

/-! ### Steps that take a source or a value -/

/-- The step goes on with single values only, which may be whole tables or shapes. -/
structure TakesSource {α : Type} (f : Compiled → Compile α) : Prop where
  isSource : ∀ {c c' : Collected} {r : Compiled} {a : α}, Yields (f r) c a c' → r.value?.isSome

/-- The step goes on with single values only, and not with whole tables or shapes. -/
structure TakesValue {α : Type} (s : Statement) (f : Compiled → Compile α) : Prop
    extends TakesSource f where
  isExpanded : ∀ {c c' : Collected} {r : Compiled} {a : α}, Yields (f r) c a c' → r.IsExpanded s c

section

variable {α β : Type} {f : Compiled → Compile α}

theorem TakesSource.bind (hf : TakesSource f) (g : α → Compile β) :
    TakesSource fun r => f r >>= g := by
  refine ⟨fun h => ?_⟩
  obtain ⟨a, c₁, hfa, -⟩ := yields_bind_iff.mp h
  exact hf.isSource hfa

/-- An expanded table is no source any more, so what was expanded was none. -/
theorem TakesSource.yields_of_expanded (hf : TakesSource f) {x : Compile Compiled} {a : α}
    (h : Yields ((x >>= expandWhole s scope) >>= f) c a c') :
    ∃ r c₁, Yields x c r c₁ ∧ r.IsExpanded s c₁ ∧ Yields (f r) c₁ a c' := by
  obtain ⟨r₁, c₁, h₁, h⟩ := yields_bind_iff.mp h
  obtain ⟨r₀, c₀, hr₀, hr₁⟩ := yields_bind_iff.mp h₁
  obtain ⟨w?, c₂, hw, -⟩ := yields_bind_iff.mp hr₁
  obtain ⟨rfl, -⟩ := whole?_yields hw
  rcases w? with _ | ⟨w, root, path⟩
  · have hexpanded : r₀.IsExpanded s c₀ := hw
    obtain ⟨rfl, rfl⟩ := hexpanded.yields_expandWhole_iff.mp hr₁
    exact ⟨r₀, c₀, hr₀, hw, h⟩
  · have hvalue := hf.isSource h
    rw [expandWhole_value? hw hr₁] at hvalue
    cases hvalue

/-- Before a step that takes a value, expanding makes no difference: without it a whole table is
refused as such, with it for its structure. -/
theorem TakesValue.expanded_sameYields (hf : TakesValue s f) (x : Compile Compiled) :
    SameYields ((x >>= expandWhole s scope) >>= f) (x >>= f) := by
  intro c a c'
  constructor
  · intro h
    obtain ⟨r, c₁, hr, -, h⟩ := hf.yields_of_expanded h
    exact yields_bind_iff.mpr ⟨r, c₁, hr, h⟩
  · intro h
    obtain ⟨r, c₁, hr, h⟩ := yields_bind_iff.mp h
    have hexpand : Yields (expandWhole s scope r) c₁ r c₁ :=
      (hf.isExpanded h).yields_expandWhole_iff.mpr ⟨rfl, rfl⟩
    exact yields_bind_iff.mpr ⟨r, c₁, yields_bind_iff.mpr ⟨r, c₁, hr, hexpand⟩, h⟩

end

theorem takesSource_compileAggregate (e : Expr) (function : Aggregate) :
    TakesSource (compileAggregate s scope e function) := by
  refine ⟨fun h => ?_⟩
  obtain ⟨-, out, value, tables, hout, -⟩ := compileAggregate_yields h
  exact hout ▸ rfl

theorem takesSource_compileRange (e : Expr) : TakesSource (compileRange s e) := by
  refine ⟨fun h => ?_⟩
  obtain ⟨root, path, l?, hchain, -⟩ := compileRange_yields h
  obtain ⟨out, hout, -⟩ := Compiled.chain?_eq_some_iff.mp hchain
  exact hout ▸ rfl

/-- Only counting takes a whole table. -/
theorem takesValue_compileAggregate {e : Expr} {function : Aggregate} (hf : function ≠ .count) :
    TakesValue s (compileAggregate s scope e function) := by
  refine ⟨takesSource_compileAggregate e function, fun h => ?_⟩
  obtain ⟨-, out, value, tables, -, -, ⟨hw, -⟩ | ⟨id, table, root, path, -, hcount, -⟩⟩ :=
    compileAggregate_yields h
  · exact hw
  · exact absurd hcount hf

theorem takesValue_toOperand (e : Expr) : TakesValue s (toOperand s e) := by
  refine ⟨⟨fun h => ?_⟩, fun {c c' r o} h => ?_⟩
  · obtain ⟨-, -, out, hout, -⟩ := toOperand_yields h
    exact hout ▸ rfl
  · obtain ⟨w?, c₁, hw, h⟩ := yields_bind_iff.mp h
    obtain ⟨rfl, -⟩ := whole?_yields hw
    split at h
    · exact absurd h not_yields_throw
    · exact absurd h not_yields_throw
    · exact hw

end

/-! ### Values -/

/-- The expression puts values together. -/
def Expr.IsConstruction : Expr → Prop
  | .tuple _ | .array _ | .object _ => True
  | _ => False

section

variable (s : Statement) (scope : Scope)

theorem compile_toList (e : Expr) :
    compile s scope (.toList e) = within (.toList e) (compileValue s scope e) :=
  rfl

theorem compile_one (e : Expr) :
    compile s scope (.one e) =
      within (.one e) (compileValue s scope e) >>= compileOne (.one e) :=
  rfl

theorem compile_select (source : Expr) (param : String) (body : Expr) :
    compile s scope (.select source param body) =
      within (.select source param body) (compile s scope source) >>= fun c =>
        compileRange s (.select source param body) c >>= fun range =>
          within (.select source param body) (compileValue s (range.scope scope param) body) >>=
            fun b => pure (range.result s scope b) :=
  rfl

/-- A list is the value of its source. -/
theorem compile_toList_sameYields (e : Expr) :
    SameYields (compile s scope (.toList e)) (compileValue s scope e) := by
  intro c r c'
  rw [compile_toList]
  exact yields_within_iff

/-- As a value, a list is its source. -/
theorem compileValue_toList_sameYields (e : Expr) :
    SameYields (compileValue s scope (.toList e)) (compileValue s scope e) := by
  intro c r c'
  have hexpanded : SameYields (compileValue s scope (.toList e))
      (compileValue s scope e >>= expandWhole s scope) :=
    (compile_toList_sameYields s scope e).bind fun _ => .refl _
  exact (hexpanded c r c').trans (expanded_expanded_sameYields _ c r c')

variable {s scope}

/-- What a construction compiles to lands below steps. -/
theorem compileValue_isBelow {e : Expr} {c c' : Collected} {r : Compiled} (he : e.IsConstruction)
    (h : Yields (compileValue s scope e) c r c') : r.IsBelow := by
  obtain ⟨r₀, c₀, hr₀, h⟩ := yields_bind_iff.mp h
  have hbelow : r₀.IsBelow := by
    cases e with
    | tuple items | array items => exact compileItems_isBelow hr₀
    | object members => exact compileMembers_isBelow hr₀
    | _ => exact he.elim
  have hexpanded : r₀.IsExpanded s c₀ :=
    Compiled.isExpanded_of_chain?_eq_none (Compiled.chain?_eq_none hbelow.outputs)
  obtain ⟨rfl, -⟩ := hexpanded.yields_expandWhole_iff.mp h
  exact hbelow

/-! ### Selections -/

/-- From the state `c`, the source of a `select` leads to a range. -/
def Ranges (s : Statement) (scope : Scope) (source : Expr) (c : Collected) (range : Range)
    (c' : Collected) : Prop :=
  ∃ r c₁, Yields (compile s scope source) c r c₁ ∧ Yields (compileRange s source r) c₁ range c'

variable {source body : Expr} {param : String} {c c' : Collected} {r : Compiled}

/-- A `select` compiles its source, ranges over it and compiles its body there. -/
theorem compile_select_yields_iff :
    Yields (compile s scope (.select source param body)) c r c' ↔ ∃ range c₁ b,
      Ranges s scope source c range c₁ ∧
        Yields (compileValue s (range.scope scope param) body) c₁ b c' ∧
        range.result s scope b = r := by
  simp only [compile_select, yields_bind_iff, yields_within_iff, yields_pure_iff]
  constructor
  · rintro ⟨r₀, c₀, hsource, range, c₁, hrange, b, c₂, hb, rfl, rfl⟩
    exact ⟨range, c₁, b, ⟨r₀, c₀, hsource, (compileRange_sameYields _ _ r₀ _ _ _).mp hrange⟩, hb,
      rfl⟩
  · rintro ⟨range, c₁, b, ⟨r₀, c₀, hsource, hrange⟩, hb, rfl⟩
    exact ⟨r₀, c₀, hsource, range, c₁, (compileRange_sameYields _ _ r₀ _ _ _).mp hrange, b, c', hb,
      rfl, rfl⟩

/-- What a `select` yields is no whole table or shape. -/
theorem compile_select_isExpanded
    (h : Yields (compile s scope (.select source param body)) c r c') : r.IsExpanded s c' := by
  obtain ⟨range, c₁, b, -, hb, rfl⟩ := compile_select_yields_iff.mp h
  obtain ⟨b₀, c₂, -, hexpanded⟩ := yields_bind_iff.mp hb
  exact (expandWhole_isExpanded hexpanded).withTables _

/-- So as a value it is what it is. -/
theorem compileValue_select_yields_iff :
    Yields (compileValue s scope (.select source param body)) c r c' ↔
      Yields (compile s scope (.select source param body)) c r c' := by
  rw [compileValue, yields_bind_iff]
  constructor
  · rintro ⟨r₀, c₀, hr₀, h⟩
    obtain ⟨rfl, rfl⟩ := (compile_select_isExpanded hr₀).yields_expandWhole_iff.mp h
    exact hr₀
  · exact fun h => ⟨r, c', h, (compile_select_isExpanded h).yields_expandWhole_iff.mpr ⟨rfl, rfl⟩⟩

/-- The source of a `select` leads to one range. -/
theorem Ranges.unique {range range' : Range} {c₁ c₂ : Collected}
    (h : Ranges s scope source c range c₁) (h' : Ranges s scope source c range' c₂) :
    range = range' ∧ c₁ = c₂ := by
  obtain ⟨r₀, c₀, hsource, hrange⟩ := h
  obtain ⟨r₀', c₀', hsource', hrange'⟩ := h'
  obtain ⟨rfl, rfl⟩ := hsource.unique hsource'
  exact hrange.unique hrange'

/-- A `select` over a table adds an entry for its rows. -/
theorem Range.result_of_table {range : Range} {id : TableId} (hid : range.table? = some id)
    (b : Compiled) :
    range.result s scope b = ⟨b.outputs, range.tables ++
      ⟨id, [], scope.beneath, s.cardinality id == .one⟩ :: b.tables⟩ := by
  rw [result, hid, List.append_assoc]
  rfl

end

/-- People with classes and grades. -/
def school : Statement where
  primary := ⟨"person", ⟨"person", [⟨"name", none, .text⟩]⟩⟩
  joins := [
    { path := "classes", table := ⟨"class", [⟨"title", none, .text⟩]⟩, cardinality := .many,
      kind := .left, on? := none },
    { path := "grades", table := ⟨"grade", [⟨"points", none, .integer⟩]⟩, cardinality := .many,
      kind := .left, on? := none }]

end NestedQuery
