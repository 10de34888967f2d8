import NestedQuery.Proofs.Mapping.Wholes

/-!
# The only element of a collection

`one` says that a collection has one element. It knows the collection by where the elements land:
every table whose elements are the value itself becomes single (`MappedTable.collapse`). What a
construction puts together lies below steps, so of a `select` with such a body only the `select`
itself becomes single. A body that is a collection itself lands where the `select` does, and its
tables become single, too (`compile_one_select_yields_iff`).
-/

namespace NestedQuery

open Compile

/-! ### Elements -/

namespace MappedTable

/-- Whether the elements are the value itself. -/
def isElement (t : MappedTable) : Bool :=
  t.target.isEmpty && !t.aggregated

/-- The table with one element, if its elements are the value itself. -/
def collapse (t : MappedTable) : MappedTable :=
  if t.isElement then { t with single := true } else t

theorem collapse_eq_self_iff (t : MappedTable) :
    t.collapse = t ↔ (t.isElement = true → t.single = true) := by
  obtain ⟨table, target, aggregated, single⟩ := t
  unfold collapse
  split
  · next helement => simp [helement, eq_comm]
  · next helement => simp [helement]

theorem map_collapse_eq_self_iff (ts : List MappedTable) :
    ts.map collapse = ts ↔ ∀ t ∈ ts, t.isElement = true → t.single = true := by
  have hid : ts.map collapse = ts ↔ ts.map collapse = ts.map id := by rw [List.map_id]
  rw [hid, List.map_inj_left]
  exact forall₂_congr fun t _ => t.collapse_eq_self_iff

/-- Elements below a step are not the value itself. -/
theorem isElement_eq_false {t : MappedTable} (h : t.target ≠ []) : t.isElement = false := by
  rw [isElement, List.isEmpty_eq_false_iff.mpr h, Bool.false_and]

end MappedTable

section

variable {s : Statement} {scope : Scope} {source body : Expr} {param : String} {range : Range}
  {id : TableId} {c c₁ c₂ c' : Collected} {b r r' : Compiled}

/-- `one` is refused if no element is the value itself. -/
theorem yields_compileOne_iff {e : Expr} :
    Yields (compileOne e r) c r' c' ↔ r.tables.any MappedTable.isElement = true ∧
      { r with tables := r.tables.map MappedTable.collapse } = r' ∧ c = c' := by
  unfold compileOne
  dsimp only
  change Yields (if r.tables.any MappedTable.isElement = true then
    pure { r with tables := r.tables.map MappedTable.collapse } else _) c r' c' ↔ _
  split
  · next hany => rw [yields_pure_iff, and_iff_right hany]
  · next hany => exact iff_of_false not_yields_throw fun h => hany h.1

theorem compile_one_yields_iff {e : Expr} :
    Yields (compile s scope (.one e)) c r' c' ↔ ∃ r, Yields (compileValue s scope e) c r c' ∧
      r.tables.any MappedTable.isElement = true ∧
      { r with tables := r.tables.map MappedTable.collapse } = r' := by
  simp only [compile_one, yields_bind_iff, yields_within_iff, yields_compileOne_iff]
  constructor
  · rintro ⟨r, _, hr, hany, rfl, rfl⟩
    exact ⟨r, hr, hany, rfl⟩
  · rintro ⟨r, hr, hany, rfl⟩
    exact ⟨r, c', hr, hany, rfl, rfl⟩

/-! ### The only element of a `select` -/

/-- The tables of a collection of rows of the table `id`, in front of those of one row. -/
def rowsOf (scope : Scope) (range : Range) (id : TableId) (single : Bool) (b : Compiled) :
    List MappedTable :=
  range.tables ++ ⟨id, [], scope.beneath, single⟩ :: b.tables

/-- Outside aggregates, the rows of the table become one. -/
theorem map_collapse_rowsOf (hscope : scope.beneath = false) :
    (rowsOf scope range id false b).map MappedTable.collapse =
      range.tables.map MappedTable.collapse ++ ⟨id, [], scope.beneath, true⟩ ::
        b.tables.map MappedTable.collapse := by
  rw [rowsOf, List.map_append, List.map_cons, hscope]
  rfl

/-- So no other table changes iff the elements of no other table are the value itself, or they are
single anyway. -/
theorem map_collapse_rowsOf_eq_iff (hscope : scope.beneath = false) :
    (rowsOf scope range id false b).map MappedTable.collapse = rowsOf scope range id true b ↔
      ∀ t ∈ range.tables ++ b.tables, t.isElement = true → t.single = true := by
  rw [map_collapse_rowsOf hscope, rowsOf, List.forall_mem_append,
    ← MappedTable.map_collapse_eq_self_iff, ← MappedTable.map_collapse_eq_self_iff]
  constructor
  · intro h
    obtain ⟨hrange, hrest⟩ := List.append_inj h (List.length_map _)
    exact ⟨hrange, (List.cons.inj hrest).2⟩
  · rintro ⟨hrange, hb⟩
    rw [hrange, hb]

/-- A `select` over many rows in the body of another one has elements where the other one has. -/
theorem exists_isElement_of_select {source' body' : Expr} {param' : String} {range' : Range}
    {id' : TableId} (hscope : scope.beneath = false)
    (hrange : Ranges s (range.scope scope param) source' c₁ range' c₂)
    (hid : range'.table? = some id') (hmany : s.cardinality id' = .many)
    (hbody : Yields (compileValue s (range.scope scope param) (.select source' param' body')) c₁ b
      c') :
    ∃ t ∈ b.tables, t.isElement = true ∧ t.single = false := by
  obtain ⟨range'', c₃, b', hrange', -, rfl⟩ :=
    compile_select_yields_iff.mp (compileValue_select_yields_iff.mp hbody)
  obtain ⟨rfl, rfl⟩ := hrange.unique hrange'
  rw [Range.result_of_table hid, hmany]
  refine ⟨⟨id', [], (range.scope scope param).beneath, false⟩, by simp, ?_, rfl⟩
  have hbeneath : (range.scope scope param).beneath = false := hscope
  rw [hbeneath]
  rfl

/-- **The only element of a `select`** over many rows of a table, whose body compiles. Outside
aggregates it compiles, to the values of the `select` and to its tables; the rows of the table
become one, and so do all other collections whose elements are the value itself. So no other table
changes iff there are no such collections. There are none in a body that is a construction; there is
one in a body that is a `select` over many rows. Beneath an aggregate the rows have no elements, so
`one` is refused unless another table has. -/
theorem compile_one_select_yields_iff (hrange : Ranges s scope source c range c₁)
    (hid : range.table? = some id) (hmany : s.cardinality id = .many)
    (hbody : Yields (compileValue s (range.scope scope param) body) c₁ b c') :
    Yields (compile s scope (.select source param body)) c
        ⟨b.outputs, rowsOf scope range id false b⟩ c' ∧
      (Yields (compile s scope (.one (.select source param body))) c r c₂ ↔
        (scope.beneath = false ∨ ∃ t ∈ range.tables ++ b.tables, t.isElement = true) ∧
          ⟨b.outputs, (rowsOf scope range id false b).map MappedTable.collapse⟩ = r ∧ c' = c₂) ∧
      (scope.beneath = false →
        (Yields (compile s scope (.one (.select source param body))) c
            ⟨b.outputs, rowsOf scope range id true b⟩ c' ↔
          ∀ t ∈ range.tables ++ b.tables, t.isElement = true → t.single = true)) ∧
      (body.IsConstruction → ∀ t ∈ b.tables, t.isElement = false) ∧
      (scope.beneath = false → ∀ source' param' body' range' c₃ id',
        body = .select source' param' body' →
        Ranges s (range.scope scope param) source' c₁ range' c₃ → range'.table? = some id' →
        s.cardinality id' = .many → ∃ t ∈ b.tables, t.isElement = true ∧ t.single = false) := by
  have hselect : Yields (compile s scope (.select source param body)) c
      ⟨b.outputs, rowsOf scope range id false b⟩ c' :=
    compile_select_yields_iff.mpr
      ⟨range, c₁, b, hrange, hbody, by rw [Range.result_of_table hid, hmany]; rfl⟩
  -- The table of the `select` is an element itself, unless it lies beneath an aggregate.
  have hany : (rowsOf scope range id false b).any MappedTable.isElement = true ↔
      scope.beneath = false ∨ ∃ t ∈ range.tables ++ b.tables, t.isElement = true := by
    rw [rowsOf, List.any_append, List.any_cons, Bool.or_left_comm, ← List.any_append,
      Bool.or_eq_true, List.any_eq_true]
    refine or_congr_left ?_
    rw [MappedTable.isElement, List.isEmpty_nil, Bool.true_and, Bool.not_eq_true']
  have hone : ∀ {r : Compiled} {c₂ : Collected},
      Yields (compile s scope (.one (.select source param body))) c r c₂ ↔
        (scope.beneath = false ∨ ∃ t ∈ range.tables ++ b.tables, t.isElement = true) ∧
          ⟨b.outputs, (rowsOf scope range id false b).map MappedTable.collapse⟩ = r ∧
          c' = c₂ := by
    intro r c₂
    rw [compile_one_yields_iff]
    constructor
    · rintro ⟨r₀, hr₀, helement, rfl⟩
      obtain ⟨rfl, rfl⟩ := hselect.unique (compileValue_select_yields_iff.mp hr₀)
      exact ⟨hany.mp helement, rfl, rfl⟩
    · rintro ⟨helement, rfl, rfl⟩
      exact ⟨_, compileValue_select_yields_iff.mpr hselect, hany.mpr helement, rfl⟩
  refine ⟨hselect, hone, fun hscope => ?_, fun hconstruction t ht => ?_, ?_⟩
  · have hothers : _ = rowsOf scope range id true b ↔ _ := map_collapse_rowsOf_eq_iff hscope
    rw [hone, ← hothers, Compiled.mk.injEq, and_iff_right (.inl hscope), and_iff_left rfl,
      and_iff_right rfl]
  · exact MappedTable.isElement_eq_false ((compileValue_isBelow hconstruction hbody).tables t ht)
  · rintro hscope source' param' body' range' c₃ id' rfl hrange' hid' hmany'
    exact exists_isElement_of_select hscope hrange' hid' hmany' hbody

end

/-- All points, once more for each class. -/
def pointsByClass : Expr :=
  .select (.member .row "classes") "c"
    (.select (.member .row "grades") "g" (.member (.var "g") "points"))

/-- The only list of points is one, but each of its points is taken to be the only one, too. -/
theorem compile_one_select_yields_iff_pointsByClass :
    ∃ range c₁ b c', Ranges school .outermost (.member .row "classes") {} range c₁ ∧
      range.table? = some 1 ∧ school.cardinality 1 = .many ∧
      Yields (compileValue school (range.scope .outermost "c")
        (.select (.member .row "grades") "g" (.member (.var "g") "points"))) c₁ b c' ∧
      Yields (compile school .outermost pointsByClass) {}
        ⟨b.outputs, [⟨1, [], false, false⟩, ⟨2, [], false, false⟩]⟩ c' ∧
      Yields (compile school .outermost (.one pointsByClass)) {}
        ⟨b.outputs, [⟨1, [], false, true⟩, ⟨2, [], false, true⟩]⟩ c' ∧
      ¬ Yields (compile school .outermost (.one pointsByClass)) {}
        ⟨b.outputs, [⟨1, [], false, true⟩, ⟨2, [], false, false⟩]⟩ c' := by
  have hrange : Ranges school .outermost (.member .row "classes") {} ⟨0, some 1, []⟩
      { bindings := [⟨.row, ["classes"]⟩] } := ⟨_, _, rfl, rfl⟩
  have hbody : Yields (compileValue school (Range.scope ⟨0, some 1, []⟩ .outermost "c")
      (.select (.member .row "grades") "g" (.member (.var "g") "points")))
      { bindings := [⟨.row, ["classes"]⟩] }
      (.ofValue (chainLeaf (.binding 1) ["points"]) .integer [⟨2, [], false, false⟩])
      { bindings := [⟨.row, ["classes"]⟩, ⟨.row, ["grades"]⟩] } := rfl
  obtain ⟨hselect, hone, honly, -⟩ := compile_one_select_yields_iff hrange rfl rfl hbody
  refine ⟨_, _, _, _, hrange, rfl, rfl, hbody, hselect, hone.mpr ⟨.inl rfl, rfl, rfl⟩, fun h => ?_⟩
  exact Bool.false_ne_true ((honly rfl).mp h ⟨2, [], false, false⟩ (by decide) rfl)

end NestedQuery
