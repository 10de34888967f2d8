import NestedQuery.Proofs.Mapping.Invariants
import NestedQuery.Proofs.Mapping.Relocation
import NestedQuery.Proofs.Mapping.Wholes

/-!
# Members of constructions

The members of a construction are compiled in turn, each below its name, and a member is read by
taking out what lies below its name. So what is read is what the value compiles to, apart from the
places of the parameters and bindings that the members before it have added
(`compileMembers_isRenumbered`). That takes a construction that reads the row, since one that reads
none is left to the evaluation, which has no members; and of a `select` the entry for its own table
lies below no name, so it is not taken out (`compile_member_object_yields_iff`).
-/

namespace NestedQuery

open Compile

/-! ### Taking out -/

namespace Compiled

theorem empty_append (r : Compiled) : ({} : Compiled) ++ r = r :=
  rfl

theorem append_empty (r : Compiled) : r ++ ({} : Compiled) = r := by
  show Compiled.mk (r.outputs ++ []) (r.tables ++ []) = r
  rw [List.append_nil, List.append_nil]

theorem member_append (r r' : Compiled) (step : Segment) :
    (r ++ r').member step = r.member step ++ r'.member step := by
  show Compiled.mk ((r.outputs ++ r'.outputs).filterMap _)
    ((r.tables ++ r'.tables).filterMap _) = _
  rw [List.filterMap_append, List.filterMap_append]
  rfl

/-- Nothing of what lies below one step lies below another. -/
theorem member_under_of_ne (r : Compiled) {step step' : Segment} (h : step ≠ step') :
    (r.under step).member step' = {} := by
  have hafter : ∀ t : Target, Target.after? step' (step :: t) = none := fun t => if_neg h
  simp only [member, under, List.filterMap_map, mk.injEq]
  constructor
  · exact List.filterMap_eq_nil_iff.mpr fun o _ => by rw [Function.comp, hafter, Option.map_none]
  · exact List.filterMap_eq_nil_iff.mpr fun t _ => by rw [Function.comp, hafter, Option.map_none]

/-- Nothing lies below a name where a table has its elements at the root. -/
theorem member_rowsOf (r : Compiled) (tables : List MappedTable) (id : TableId)
    (aggregated single : Bool) (step : Segment) :
    member ⟨r.outputs, tables ++ ⟨id, [], aggregated, single⟩ :: r.tables⟩ step =
      ⟨(r.member step).outputs, (member ⟨[], tables⟩ step).tables ++ (r.member step).tables⟩ := by
  rw [member, List.filterMap_append]
  rfl

end Compiled

section

variable {s : Statement} {scope : Scope} {whole : Expr} {members : List (String × Expr)}
  {n : String} {e : Expr} {c c' c₀ c₁ d d' : Collected} {o r r' : Compiled}

/-- A member of what is no chain is what lies below its name, if a value does. -/
theorem yields_compileMember_iff {e base : Expr} (h : r.chain? = none) :
    Yields (compileMember s e base n r) c r' c' ↔
      (r.member (.field n)).outputs ≠ [] ∧ r.member (.field n) = r' ∧ c = c' := by
  rw [compileMember, h]
  dsimp only
  split
  · next hempty =>
    exact iff_of_false not_yields_throw fun hr => hr.1 (List.isEmpty_iff.mp hempty)
  · next hempty => rw [yields_pure_iff, and_iff_right (mt List.isEmpty_iff.mpr hempty)]

theorem compile_member_yields_iff {base : Expr} (h : base.readsRow = true) :
    Yields (compile s scope (.member base n)) c r' c' ↔ ∃ r c₁,
      Yields (compile s scope base) c r c₁ ∧
        Yields (compileMember s (.member base n) base n r) c₁ r' c' := by
  have hparam : ¬ (Expr.member base n).isParameter = true := by
    show ¬ (!base.readsRow) = true
    rw [h]
    exact Bool.false_ne_true
  conv_lhs => unfold compile
  rw [if_neg hparam]
  simp only [yields_bind_iff, yields_within_iff]

/-! ### Members in turn -/

theorem compileValue_growsTo (hc : Grounded c.bindings) (hscope : scope.IsRegistered c)
    (h : Yields (compileValue s scope e) c r d) : c.GrowsTo d := by
  have hensures : Ensures (fun _ => True) _ c (compileValue s scope e) :=
    expanded_ensures (compile_ensures s e hc hscope fun _ _ _ => trivial) scope
  exact (hensures.yields h).1

theorem compileMembers_growsTo (hc : Grounded c.bindings) (hscope : scope.IsRegistered c)
    (h : Yields (compileMembers s scope whole members) c o d) : c.GrowsTo d := by
  have hensures : Ensures (fun _ => True) _ c (compileMembers s scope whole members) :=
    compileMembers_ensures s members hc hscope (fun _ _ _ => trivial) whole
  exact (hensures.yields h).1

/-- If each member compiles, they compile in turn. -/
theorem exists_compileMembers_yields (hc : Grounded c.bindings) (hscope : scope.IsRegistered c)
    (hmembers : ∀ m ∈ members, ∃ r d, Yields (compileValue s scope m.2) c r d)
    (hgrows : c.GrowsTo c₀) :
    ∃ o d, Yields (compileMembers s scope whole members) c₀ o d := by
  induction members generalizing c₀ with
  | nil => exact ⟨{}, c₀, yields_pure_iff.mpr ⟨rfl, rfl⟩⟩
  | cons m ms ih =>
    obtain ⟨name, e⟩ := m
    obtain ⟨⟨r, d, hr⟩, hms⟩ := List.forall_mem_cons.mp hmembers
    obtain ⟨d', hr', -⟩ := compileValue_yields_of_growsTo hc hscope hgrows hr
    have hgrows' := compileValue_growsTo hgrows.grounded (hscope.mono hgrows) hr'
    obtain ⟨o, d₂, ho⟩ := ih hms (hgrows.trans hgrows')
    exact ⟨_, d₂, yields_bind_iff.mpr ⟨_, d', yields_within_iff.mpr hr',
      yields_bind_iff.mpr ⟨o, d₂, ho, yields_pure_iff.mpr ⟨rfl, rfl⟩⟩⟩⟩

/-- No member lies below a name that none has. -/
theorem compileMembers_member_of_not_mem (hn : n ∉ members.map Prod.fst)
    (h : Yields (compileMembers s scope whole members) c o d) : o.member (.field n) = {} := by
  induction members generalizing c o d with
  | nil =>
    obtain ⟨rfl, -⟩ := yields_pure_iff.mp h
    rfl
  | cons m ms ih =>
    obtain ⟨name, e⟩ := m
    rw [List.map_cons, List.mem_cons, not_or] at hn
    obtain ⟨r, c₁, -, h⟩ := yields_bind_iff.mp h
    obtain ⟨rest, c₂, hrest, h⟩ := yields_bind_iff.mp h
    obtain ⟨rfl, -⟩ := yields_pure_iff.mp h
    have hne : Segment.field name ≠ .field n := fun heq => hn.1 (Segment.field.inj heq).symm
    rw [Compiled.member_append, Compiled.member_under_of_ne _ hne, ih hn.2 hrest]
    rfl

/-- **What lies below the name of a member** is what its value has compiled to in its turn. -/
theorem exists_of_compileMembers_yields (hc : Grounded c.bindings) (hscope : scope.IsRegistered c)
    (hnames : (members.map Prod.fst).Nodup) (hmem : (n, e) ∈ members)
    (h : Yields (compileMembers s scope whole members) c o d) :
    ∃ c₁ d₁, c.GrowsTo c₁ ∧ Yields (compileValue s scope e) c₁ (o.member (.field n)) d₁ ∧
      d₁.GrowsTo d := by
  induction members generalizing c o d with
  | nil => exact absurd hmem List.not_mem_nil
  | cons m ms ih =>
    obtain ⟨name, e'⟩ := m
    rw [List.map_cons, List.nodup_cons] at hnames
    obtain ⟨r, c₁, hr, h⟩ := yields_bind_iff.mp h
    obtain ⟨rest, c₂, hrest, h⟩ := yields_bind_iff.mp h
    obtain ⟨rfl, rfl⟩ := yields_pure_iff.mp h
    have hr : Yields (compileValue s scope e') c r c₁ := yields_within_iff.mp hr
    have hgrows := compileValue_growsTo hc hscope hr
    have hgrows' : c₁.GrowsTo c₂ :=
      compileMembers_growsTo hgrows.grounded (hscope.mono hgrows) hrest
    -- Names differ, so what lies below one of them comes from its own value alone.
    rw [Compiled.member_append]
    rcases List.mem_cons.mp hmem with heq | hmem
    · obtain ⟨rfl, rfl⟩ := Prod.mk.inj heq
      rw [Compiled.member_under, compileMembers_member_of_not_mem hnames.1 hrest,
        Compiled.append_empty]
      exact ⟨c, c₁, .refl hc, hr, hgrows'⟩
    · have hn : n ∈ ms.map Prod.fst := List.mem_map_of_mem (f := Prod.fst) hmem
      have hne : Segment.field name ≠ .field n := fun heq => hnames.1 (Segment.field.inj heq ▸ hn)
      rw [Compiled.member_under_of_ne _ hne, Compiled.empty_append]
      obtain ⟨c₃, d₁, hgrows₃, hvalue, hd₁⟩ := ih hgrows.grounded (hscope.mono hgrows) hnames.2 hmem
        hrest
      exact ⟨c₃, d₁, hgrows.trans hgrows₃, hvalue, hd₁⟩

/-- The result `r'` with what has been collected then is the result `r` from the state `c`, apart
from the places of parameters and bindings: other things have been collected before it, and more
after it. -/
def IsRenumbered (c : Collected) (r : Compiled) (d : Collected) (r' : Compiled) (d' : Collected) :
    Prop :=
  ∃ c₁ d₁, c.GrowsTo c₁ ∧ r.shift (.past c c₁) = r' ∧ d.Shifts (.past c c₁) d₁ ∧ d₁.GrowsTo d'

/-- **A member of a construction** is its value, apart from the places. -/
theorem compileMembers_isRenumbered (whole : Expr) (hc : Grounded c.bindings)
    (hscope : scope.IsRegistered c) (hnames : (members.map Prod.fst).Nodup) (hmem : (n, e) ∈ members)
    (hmembers : ∀ m ∈ members, ∃ r d, Yields (compileValue s scope m.2) c r d)
    (he : Yields (compileValue s scope e) c r d) :
    ∃ o d', Yields (compileMembers s scope whole members) c o d' ∧
      IsRenumbered c r d (o.member (.field n)) d' := by
  obtain ⟨o, d', ho⟩ := exists_compileMembers_yields hc hscope hmembers (.refl hc)
  obtain ⟨c₁, d₁, hgrows, hvalue, hd₁⟩ :=
    exists_of_compileMembers_yields hc hscope hnames hmem ho
  obtain ⟨d₂, hvalue', hd₂⟩ := compileValue_yields_of_growsTo hc hscope hgrows he
  obtain ⟨hr, rfl⟩ := hvalue'.unique hvalue
  exact ⟨o, d', ho, c₁, d₂, hgrows, hr, hd₂, hd₁⟩

/-- Places do not matter for whether there are values. -/
theorem IsRenumbered.outputs_ne_nil_iff (h : IsRenumbered c r d r' d') :
    r'.outputs ≠ [] ↔ r.outputs ≠ [] := by
  obtain ⟨c₁, d₁, -, rfl, -, -⟩ := h
  exact List.map_eq_nil_iff.not

/-! ### Reading members -/

/-- A construction that reads no row is left to the evaluation, which has no members. -/
theorem not_bind_of_member_object {arguments : Document} {bound : List Value}
    (hrow : (Expr.object members).readsRow = false)
    (h : Yields (compile s scope (.member (.object members) n)) c r d) :
    d.pool.bind arguments ≠ .ok bound := by
  intro hbind
  have hparam : (Expr.member (.object members) n).isParameter = true := by
    show (!(Expr.object members).readsRow) = true
    rw [hrow]
    rfl
  -- Evaluation finds no members in a construction, whatever the arguments are.
  have hfails : ∀ arguments v,
      (Expr.member (.object members) n).evaluate arguments ≠ .ok v := fun _ _ => nofun
  rw [compile_eq_compileParameter hparam] at h
  obtain ⟨id, type, hid, -⟩ := compileParameter_yields h
  obtain ⟨source, rfl, rfl, rfl | ⟨v, -, hv, -⟩⟩ := registerParameter_yields hid
  · have hslot : (c.pool.push (.deferred (.member (.object members) n))).slots[c.pool.size]? =
        some ⟨.deferred (.member (.object members) n), false⟩ :=
      List.getElem?_concat_length
    obtain ⟨v, -, hv⟩ := Pool.getElem?_of_bind_eq_ok hbind hslot
    exact hfails arguments v hv
  · exact hfails .null v hv

/-- The scope of the body of a `select` knows what its parameter stands for. -/
theorem Ranges.isRegistered {source : Expr} {range : Range}
    (hc : Grounded c.bindings) (hscope : scope.IsRegistered c)
    (h : Ranges s scope source c range c₁) :
    Grounded c₁.bindings ∧ ∀ param, (range.scope scope param).IsRegistered c₁ := by
  obtain ⟨r, c₀, hsource, hrange⟩ := h
  have hensures : Ensures (fun _ => True) _ c (compile s scope source) :=
    compile_ensures s source hc hscope fun _ _ _ => trivial
  obtain ⟨hgrows, hr⟩ := hensures.yields hsource
  have hensures : Ensures (fun _ => True) _ c₀ (compileRange s source r) :=
    compileRange_ensures hgrows.grounded hr source
  obtain ⟨hgrows', hbinding⟩ := hensures.yields hrange
  exact ⟨hgrows'.grounded, (hscope.mono (hgrows.trans hgrows')).range hbinding⟩

/-- **Reading a member of a construction** whose members have distinct names and compile.

If the construction reads the row, its member compiles to what the value compiles to in its place,
apart from the places of parameters and bindings, unless that has no values at all; then it is
refused. If the construction reads no row, its member is never bound.

If the construction is the body of a `select` over a table, its members compile where the parameter
stands for the rows. The member of the `select` has the values and tables of the value there, again
apart from places. The `select` of the value has one table more than these and those of the source:
its own, which says that there is a value for each row. -/
theorem compile_member_object_yields_iff (hc : Grounded c.bindings) (hscope : scope.IsRegistered c)
    (hnames : (members.map Prod.fst).Nodup) (hmem : (n, e) ∈ members) :
    ((∀ m ∈ members, ∃ r d, Yields (compileValue s scope m.2) c r d) →
      ((Expr.object members).readsRow = true → ∀ r d, Yields (compileValue s scope e) c r d →
        ∃ r' d', IsRenumbered c r d r' d' ∧ ∀ o d₂,
          Yields (compile s scope (.member (.object members) n)) c o d₂ ↔
            r.outputs ≠ [] ∧ r' = o ∧ d' = d₂) ∧
      ((Expr.object members).readsRow = false → ∀ o d₂ arguments bound,
        Yields (compile s scope (.member (.object members) n)) c o d₂ →
          d₂.pool.bind arguments ≠ .ok bound)) ∧
    ∀ source param range id c₁, Ranges s scope source c range c₁ → range.table? = some id →
      (∀ m ∈ members, ∃ r d, Yields (compileValue s (range.scope scope param) m.2) c₁ r d) →
      ∀ r d, Yields (compileValue s (range.scope scope param) e) c₁ r d →
        Yields (compile s scope (.select source param e)) c
            ⟨r.outputs, range.tables ++
              ⟨id, [], scope.beneath, s.cardinality id == .one⟩ :: r.tables⟩ d ∧
          ∃ r' d', IsRenumbered c₁ r d r' d' ∧ ∀ o d₂,
            Yields (compile s scope (.member (.select source param (.object members)) n)) c o d₂ ↔
              r.outputs ≠ [] ∧
                ⟨r'.outputs, (Compiled.member ⟨[], range.tables⟩ (.field n)).tables ++ r'.tables⟩ =
                  o ∧ d' = d₂ := by
  refine ⟨fun hmembers => ⟨fun hrow r d he => ?_, fun hrow o d₂ arguments bound h => ?_⟩, ?_⟩
  · obtain ⟨o, d', ho, hrenumbered⟩ := compileMembers_isRenumbered (.object members) hc
      hscope hnames hmem hmembers he
    refine ⟨_, d', hrenumbered, fun o' d₂ => ?_⟩
    have hchain := Compiled.chain?_eq_none (compileMembers_isBelow ho).outputs
    rw [compile_member_yields_iff hrow, ← hrenumbered.outputs_ne_nil_iff,
      ← yields_compileMember_iff hchain]
    constructor
    · rintro ⟨r₀, c₀, hr₀, h⟩
      obtain ⟨rfl, rfl⟩ := hr₀.unique ho
      exact h
    · exact fun h => ⟨o, d', ho, h⟩
  · exact not_bind_of_member_object hrow h
  · intro source param range id c₁ hrange hid hmembers r d he
    obtain ⟨hc₁, hinner⟩ := hrange.isRegistered hc hscope
    obtain ⟨o, d', ho, hrenumbered⟩ := compileMembers_isRenumbered (.object members) hc₁
      (hinner param) hnames hmem hmembers he
    have hchain := Compiled.chain?_eq_none (compileMembers_isBelow ho).outputs
    -- The parameter stands for the rows, and the construction compiles there as it does alone.
    have hobject : Yields (compileValue s (range.scope scope param) (.object members)) c₁ o d' :=
      yields_bind_iff.mpr ⟨o, d', ho,
        (Compiled.isExpanded_of_chain?_eq_none hchain).yields_expandWhole_iff.mpr ⟨rfl, rfl⟩⟩
    have hselect := compile_select_yields_iff.mpr
      ⟨range, c₁, o, hrange, hobject, Range.result_of_table hid o⟩
    have hrows : Compiled.chain? ⟨o.outputs, range.tables ++
        ⟨id, [], scope.beneath, s.cardinality id == .one⟩ :: o.tables⟩ = none := hchain
    refine ⟨compile_select_yields_iff.mpr ⟨range, c₁, r, hrange, he, Range.result_of_table hid r⟩,
      _, d', hrenumbered, fun o' d₂ => ?_⟩
    rw [compile_member_yields_iff rfl, ← hrenumbered.outputs_ne_nil_iff,
      ← Compiled.member_rowsOf o range.tables id scope.beneath (s.cardinality id == .one)]
    constructor
    · rintro ⟨r₀, c₀, hr₀, h⟩
      obtain ⟨rfl, rfl⟩ := hr₀.unique hselect
      exact (yields_compileMember_iff hrows).mp h
    · exact fun h => ⟨_, d', hselect, (yields_compileMember_iff hrows).mpr h⟩

end

/-- The grades and the classes of a person. -/
def gradesAndClasses : List (String × Expr) :=
  [("grades", .member .row "grades"), ("classes", .member .row "classes")]

/-- A number and the title of a class. -/
def numberedTitle : List (String × Expr) :=
  [("number", .constant (.integer 1)), ("title", .member (.var "c") "title")]

/-- The classes behind the grades have another binding, and are a collection still. The titles of
the classes are a collection, but read as a member of each class they are none. -/
theorem compile_member_object_yields_iff_school :
    (∃ r d o d', Yields (compileValue school .outermost (.member .row "classes")) {} r d ∧
        r = ⟨[⟨chainLeaf (.binding 0) ["title"], [.field "title"], .text⟩],
          [⟨1, [], false, false⟩]⟩ ∧
        Yields (compile school .outermost (.member (.object gradesAndClasses) "classes")) {} o d' ∧
        o = ⟨[⟨chainLeaf (.binding 1) ["title"], [.field "title"], .text⟩],
          [⟨1, [], false, false⟩]⟩ ∧ IsRenumbered {} r d o d') ∧
      (∃ r d, Yields (compile school .outermost
        (.select (.member .row "classes") "c" (.member (.var "c") "title"))) {} r d ∧
          r.tables = [⟨1, [], false, false⟩]) ∧
      ∃ o d, Yields (compile school .outermost
        (.member (.select (.member .row "classes") "c" (.object numberedTitle)) "title")) {} o d ∧
          o.tables = [] := by
  have hclasses : Yields (compileValue school .outermost (.member .row "classes")) {}
      ⟨[⟨chainLeaf (.binding 0) ["title"], [.field "title"], .text⟩], [⟨1, [], false, false⟩]⟩
      { bindings := [⟨.row, ["classes"]⟩] } := rfl
  have hmember : Yields (compile school .outermost (.member (.object gradesAndClasses) "classes"))
      {} ⟨[⟨chainLeaf (.binding 1) ["title"], [.field "title"], .text⟩], [⟨1, [], false, false⟩]⟩
      { bindings := [⟨.row, ["grades"]⟩, ⟨.row, ["classes"]⟩] } := rfl
  have hrange : Ranges school .outermost (.member .row "classes") {} ⟨0, some 1, []⟩
      { bindings := [⟨.row, ["classes"]⟩] } := ⟨_, _, rfl, rfl⟩
  have htitle : Yields (compileValue school (Range.scope ⟨0, some 1, []⟩ .outermost "c")
      (.member (.var "c") "title")) { bindings := [⟨.row, ["classes"]⟩] }
      (.ofValue (chainLeaf (.binding 0) ["title"]) .text) { bindings := [⟨.row, ["classes"]⟩] } :=
    rfl
  have hgrounded : Grounded (Collected.bindings {}) := .nil
  have hscope := Scope.isRegistered_outermost {}
  have hnames : (gradesAndClasses.map Prod.fst).Nodup := by decide
  have hnames' : (numberedTitle.map Prod.fst).Nodup := by decide
  obtain ⟨hobject, -⟩ := compile_member_object_yields_iff (s := school) hgrounded hscope hnames
    (List.mem_cons_of_mem _ (List.mem_singleton_self _))
  obtain ⟨hreads, -⟩ := hobject
    (List.forall_mem_cons.mpr ⟨⟨_, _, rfl⟩, List.forall_mem_singleton.mpr ⟨_, _, hclasses⟩⟩)
  obtain ⟨r', d', hrenumbered, hiff⟩ := hreads rfl _ _ hclasses
  obtain ⟨-, rfl, rfl⟩ := (hiff _ _).mp hmember
  obtain ⟨-, hselect⟩ := compile_member_object_yields_iff (s := school) hgrounded hscope hnames'
    (List.mem_cons_of_mem _ (List.mem_singleton_self _))
  obtain ⟨htitles, r₂, d₂, ⟨_, _, -, rfl, -, -⟩, hiff'⟩ := hselect _ "c" _ _ _ hrange rfl
    (List.forall_mem_cons.mpr ⟨⟨_, _, rfl⟩, List.forall_mem_singleton.mpr ⟨_, _, htitle⟩⟩) _ _
    htitle
  exact ⟨⟨_, _, _, _, hclasses, rfl, hmember, rfl, hrenumbered⟩, ⟨_, _, htitles, rfl⟩,
    _, d₂, (hiff' _ d₂).mpr ⟨List.cons_ne_nil _ _, rfl, rfl⟩, rfl⟩

end NestedQuery
