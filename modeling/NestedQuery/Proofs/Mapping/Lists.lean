import NestedQuery.Proofs.Mapping.Replacement

/-!
# Collections as lists

`toList` stands for its source. Where a value is taken it always does, since there a whole table is
expanded or refused with or without it, and so it does everywhere for what is no whole table
(`unseen_lists`). What is counted and what a `select` ranges over is taken as it is, though, and a
list of a whole table is its members: there it is refused, and the table is not
(`compile_aggregate_toList_yields_iff`, `compile_select_toList_yields_iff`). So `toList` never
changes what a mapping compiles to, but may change whether it compiles
(`compileMapping_yields_iff_of_lists`).
-/

namespace NestedQuery

open Compile
open NestedQuery.Expr (Replacement Replaces ReplacesValue ReplacesSource SameValues)

namespace Expr

/-- Whatever its variables stand for, over `s` the expression is no whole table or shape. -/
def NeverWhole (s : Statement) (e : Expr) : Prop :=
  ∀ scope c r c', Yields (compile s scope e) c r c' → r.IsExpanded s c'

/-- From the state `c`, the expression leads to a whole table. -/
def LeadsToTable (s : Statement) (scope : Scope) (e : Expr) (c : Collected) : Prop :=
  ∃ r c' id table chain, Yields (compile s scope e) c r c' ∧
    Yields (whole? s r) c' (some (.table id table, chain)) c'

/-- The second expression is the first one, which reads the row, as a list. -/
structure IsListed (e e' : Expr) : Prop where
  eq : e' = .toList e
  readsRow : e.readsRow = true
  not_isOpened : e.isOpened = false

/-- Lists in places that take a value and lists of what is no whole table in any place. As sources,
those of `source` may be lists, too. -/
def lists (s : Statement) (source : Expr → Expr → Prop := fun _ _ => False) : Replacement where
  anywhere e e' := e.IsListed e' ∧ e.NeverWhole s
  source := source
  value := IsListed

end Expr

section

variable {s : Statement} {scope : Scope} {e e' : Expr} {c c' : Collected} {r : Compiled}

/-! ### What is no whole table -/

theorem neverWhole_select (s : Statement) (source : Expr) (param : String) (body : Expr) :
    (Expr.select source param body).NeverWhole s :=
  fun _ _ _ _ => compile_select_isExpanded

/-- A chain from the row to a column is a value. -/
theorem neverWhole_of_rowPath? {path : List String} (hpath : e.rowPath? = some path)
    (hcolumn : s.isWhole path = false) : e.NeverWhole s := by
  intro scope c r c' h
  obtain ⟨rfl, type, rfl⟩ := compile_yields_chain hpath h
  rw [Compiled.IsExpanded, whole?]
  refine yields_bind_iff.mpr ⟨s.lookup? path, c, yields_lookup_iff.mpr ⟨⟨path, rfl, rfl⟩, rfl⟩, ?_⟩
  rw [Statement.isWhole] at hcolumn
  generalize s.lookup? path = l? at hcolumn ⊢
  rcases l? with _ | l
  · exact yields_pure_iff.mpr ⟨rfl, rfl⟩
  · cases l with
    | shape | table => cases hcolumn
    | _ => exact yields_pure_iff.mpr ⟨rfl, rfl⟩

/-! ### Values as lists -/

/-- What is no whole table is its own list. -/
theorem Expr.NeverWhole.toList_sameYields (h : e.NeverWhole s) (scope : Scope) :
    SameYields (compile s scope e) (compile s scope (.toList e)) := by
  intro c r c'
  rw [compile_toList_sameYields, compileValue, yields_bind_iff]
  constructor
  · exact fun hr => ⟨r, c', hr, (h _ _ _ _ hr).yields_expandWhole_iff.mpr ⟨rfl, rfl⟩⟩
  · rintro ⟨r₀, c₀, hr₀, hexpand⟩
    obtain ⟨rfl, rfl⟩ := (h _ _ _ _ hr₀).yields_expandWhole_iff.mp hexpand
    exact hr₀

theorem Expr.IsListed.compileValue_sameYields (h : e.IsListed e') (scope : Scope) :
    SameYields (compileValue s scope e) (compileValue s scope e') := by
  obtain ⟨rfl, -, -⟩ := h
  exact fun c r c' => (compileValue_toList_sameYields s scope e c r c').symm

/-- What takes a source does the same with a list, if it takes the list at all. -/
theorem Expr.IsListed.source_agrees (h : e.IsListed e') (scope : Scope) {α : Type}
    {f f' : Compiled → Compile α} (hf : TakesSource f) (hff' : ∀ r, Agrees Eq False (f r) (f' r)) :
    Agrees Eq False (compile s scope e >>= f) (compile s scope e' >>= f') := by
  obtain ⟨rfl, -, -⟩ := h
  refine ⟨False.elim, fun {c c' a d'} hc h => ?_⟩
  obtain rfl := Collected.resembles_eq_iff.mp hc
  refine ⟨d', ?_, Collected.resembles_eq_iff.mpr rfl⟩
  obtain ⟨r₁, c₁, hr₁, h⟩ := yields_bind_iff.mp h
  have hexpanded : Yields ((compile s scope e >>= expandWhole s scope) >>= f) c a d' :=
    yields_bind_iff.mpr ⟨r₁, c₁, (compile_toList_sameYields s scope e c r₁ c₁).mp hr₁,
      (hff' r₁).yields h⟩
  obtain ⟨r, c₂, hr, -, h⟩ := hf.yields_of_expanded hexpanded
  exact yields_bind_iff.mpr ⟨r, c₂, hr, h⟩

/-- Lists do not show if they do not as sources. -/
theorem unseen_lists_of_source {both : Prop} {source : Expr → Expr → Prop}
    (hlisted : ∀ {e e'}, source e e' → e.IsListed e')
    (hsource : ∀ {e e'}, source e e' → ∀ scope {α : Type} {f f' : Compiled → Compile α},
      TakesSource f → (∀ r, Agrees Eq both (f r) (f' r)) →
        Agrees Eq both (compile s scope e >>= f) (compile s scope e' >>= f')) :
    Unseen Eq both s (Expr.lists s source) := by
  have hrow : ∀ {e e' : Expr}, e.IsListed e' → e.readsRow = true ∧ e'.readsRow = true := by
    rintro e e' ⟨rfl, hreads, -⟩
    exact ⟨hreads, hreads⟩
  -- What is listed is no array and no conditional, so nothing looks into either side.
  have hclosed : ∀ {e e' : Expr}, e.IsListed e' → e.isOpened = false ∧ e'.isOpened = false := by
    rintro e e' ⟨rfl, -, hclosed⟩
    exact ⟨hclosed, rfl⟩
  have hrows : Expr.OnRows (Expr.lists s source) :=
    ⟨fun h => (hrow h.1).1, fun h => (hrow (hlisted h)).1, fun h => (hrow h).1⟩
  refine
    { keepsRow := ⟨fun h => (hrow h.1).2.trans (hrow h.1).1.symm, fun h => hrow (hlisted h), hrow⟩
      anywhere := fun {e e'} h scope => ?_
      source := hsource
      value := fun h scope => .of_sameYields_eq (h.compileValue_sameYields scope)
      not_isOpened := fun h => h.elim (fun h => hclosed h.1) hclosed
      deferred := fun h hfree => (h.eq_of_not_readsRow hrows hfree).symm
      sameValues := fun h hfree => h.eq_of_not_readsRow hrows hfree ▸ .refl _ }
  obtain ⟨⟨rfl, -, -⟩, hvalue⟩ := h
  exact .of_sameYields_eq (hvalue.toList_sameYields scope)

/-- **Lists do not show** in places that take a value, nor where no whole table is listed. -/
theorem unseen_lists (s : Statement) : Unseen Eq True s (Expr.lists s) :=
  unseen_lists_of_source False.elim False.elim

/-- Lists as sources do not show where they are taken. -/
theorem unseen_lists_isListed (s : Statement) : Unseen Eq False s (Expr.lists s Expr.IsListed) :=
  unseen_lists_of_source id fun h => h.source_agrees

/-! ### Sources as lists -/

theorem yields_compile_aggregate_iff {function : Aggregate} :
    Yields (compile s scope (.aggregate function e)) c r c' ↔
      Yields (compile s { scope with beneath := true } e >>=
        compileAggregate s scope (.aggregate function e) function) c r c' := by
  have hwithin : ∀ x : Compile Compiled,
      SameYields (within (.aggregate function e) x) x := fun _ _ _ _ => yields_within_iff
  exact (hwithin _).bind (fun _ => .refl _) c r c'

/-- The step goes on with single values and whole tables, but not with whole shapes. -/
structure TakesTable {α : Type} (s : Statement) (f : Compiled → Compile α) : Prop
    extends TakesSource f where
  isTable : ∀ {c c' : Collected} {r : Compiled} {a : α}, Yields (f r) c a c' →
    r.IsExpanded s c ∨ ∃ id table chain, Yields (whole? s r) c (some (.table id table, chain)) c

theorem takesTable_compileAggregate (e : Expr) (function : Aggregate) :
    TakesTable s (compileAggregate s scope e function) := by
  refine ⟨takesSource_compileAggregate e function, fun h => ?_⟩
  obtain ⟨-, out, value, tables, -, -, ⟨hw, -⟩ | ⟨id, table, root, path, hw, -⟩⟩ :=
    compileAggregate_yields h
  · exact .inl hw
  · exact .inr ⟨id, table, (root, path), hw⟩

theorem takesTable_compileRange (e : Expr) : TakesTable s (compileRange s e) := by
  refine ⟨takesSource_compileRange e, fun {c c' r a} h => ?_⟩
  obtain ⟨root, path, l?, hchain, hl, hshape, -⟩ := compileRange_yields h
  -- The whole table is looked up in the same way as the range.
  rw [Compiled.IsExpanded, whole?, hchain]
  rcases l? with _ | l
  · exact .inl (yields_bind_iff.mpr ⟨_, c, hl, yields_pure_iff.mpr ⟨rfl, rfl⟩⟩)
  · cases l with
    | shape => exact absurd rfl hshape
    | table id table =>
      exact .inr ⟨id, table, _,
        yields_bind_iff.mpr ⟨_, c, hl, yields_pure_iff.mpr ⟨rfl, rfl⟩⟩⟩
    | _ => exact .inl (yields_bind_iff.mpr ⟨_, c, hl, yields_pure_iff.mpr ⟨rfl, rfl⟩⟩)

/-- **A list as a source** is its collection, except that a list of a whole table is refused. -/
theorem yields_toList_bind_iff {α : Type} {f : Compiled → Compile α} (hf : TakesTable s f) {a : α} :
    Yields (compile s scope (.toList e) >>= f) c a c' ↔
      Yields (compile s scope e >>= f) c a c' ∧ ¬ e.LeadsToTable s scope c := by
  have hlist : SameYields (compile s scope (.toList e) >>= f)
      ((compile s scope e >>= expandWhole s scope) >>= f) :=
    (compile_toList_sameYields s scope e).bind fun _ => .refl _
  rw [hlist]
  constructor
  · intro h
    obtain ⟨r, c₁, hr, hexpanded, h⟩ := hf.yields_of_expanded h
    refine ⟨yields_bind_iff.mpr ⟨r, c₁, hr, h⟩, ?_⟩
    rintro ⟨r', c₁', id, table, chain, hr', hw⟩
    obtain ⟨rfl, rfl⟩ := hr.unique hr'
    cases (hexpanded.unique hw).1
  · rintro ⟨h, htable⟩
    obtain ⟨r, c₁, hr, h⟩ := yields_bind_iff.mp h
    have hexpanded : r.IsExpanded s c₁ := (hf.isTable h).resolve_right fun ⟨id, table, chain, hw⟩ =>
      htable ⟨r, c₁, id, table, chain, hr, hw⟩
    have hexpand : Yields (expandWhole s scope r) c₁ r c₁ :=
      hexpanded.yields_expandWhole_iff.mpr ⟨rfl, rfl⟩
    exact yields_bind_iff.mpr ⟨r, c₁, yields_bind_iff.mpr ⟨r, c₁, hr, hexpand⟩, h⟩

/-- An aggregate of a list. -/
theorem compile_aggregate_toList_yields_iff {function : Aggregate} :
    Yields (compile s scope (.aggregate function (.toList e))) c r c' ↔
      Yields (compile s scope (.aggregate function e)) c r c' ∧
        ¬ e.LeadsToTable s { scope with beneath := true } c := by
  rw [yields_compile_aggregate_iff, yields_compile_aggregate_iff,
    ← yields_toList_bind_iff (takesTable_compileAggregate (.aggregate function e) function)]
  exact (SameYields.refl _).bind (fun r => compileAggregate_sameYields scope.aligned_self _ _ _ r)
    c r c'

/-- The range of a list. -/
theorem ranges_toList_iff {range : Range} :
    Ranges s scope (.toList e) c range c' ↔
      Ranges s scope e c range c' ∧ ¬ e.LeadsToTable s scope c := by
  have hbind : ∀ source, Ranges s scope source c range c' ↔
      Yields (compile s scope source >>= compileRange s e) c range c' := by
    intro source
    rw [yields_bind_iff]
    exact exists_congr fun r => exists_congr fun c₁ =>
      and_congr_right fun _ => compileRange_sameYields source e r c₁ range c'
  rw [hbind, hbind, yields_toList_bind_iff (takesTable_compileRange e)]

/-- A `select` over a list. -/
theorem compile_select_toList_yields_iff {param : String} {body : Expr} :
    Yields (compile s scope (.select (.toList e) param body)) c r c' ↔
      Yields (compile s scope (.select e param body)) c r c' ∧ ¬ e.LeadsToTable s scope c := by
  simp only [compile_select_yields_iff, ranges_toList_iff]
  constructor
  · rintro ⟨range, c₁, b, ⟨hrange, htable⟩, hb⟩
    exact ⟨⟨range, c₁, b, hrange, hb⟩, htable⟩
  · rintro ⟨⟨range, c₁, b, hrange, hb⟩, htable⟩
    exact ⟨range, c₁, b, ⟨hrange, htable⟩, hb⟩

/-- A whole table can be counted. -/
theorem Expr.LeadsToTable.exists_count (h : e.LeadsToTable s { scope with beneath := true } c) :
    ∃ r c', Yields (compile s scope (.aggregate .count e)) c r c' := by
  obtain ⟨r, c₁, id, table, ⟨root, path⟩, hr, hw⟩ := h
  obtain ⟨out, hout, -⟩ := Option.bind_eq_some_iff.mp ((whole?_yields hw).2 _ _ _ rfl).1
  obtain ⟨a, ha⟩ : ∃ a,
      Yields (compileAggregate s scope (.aggregate .count e) .count r) c₁ a c₁ := by
    rw [compileAggregate, hout]
    exact ⟨_, yields_bind_iff.mpr ⟨_, c₁, hw, yields_pure_iff.mpr ⟨rfl, rfl⟩⟩⟩
  exact ⟨a, c₁, yields_compile_aggregate_iff.mpr (yields_bind_iff.mpr ⟨r, c₁, hr, ha⟩)⟩

/-- A whole table can be ranged over. -/
theorem Expr.LeadsToTable.exists_ranges (h : e.LeadsToTable s scope c) :
    ∃ range c' id, Ranges s scope e c range c' ∧ range.table? = some id := by
  obtain ⟨r, c₁, id, table, ⟨root, path⟩, hr, hw⟩ := h
  obtain ⟨hchain, path', hpath, hlookup⟩ := (whole?_yields hw).2 _ _ _ rfl
  have hl : Yields (lookup s root path) c₁ (some (.table id table)) c₁ :=
    yields_lookup_iff.mpr ⟨⟨path', hpath, hlookup⟩, rfl⟩
  obtain ⟨c₂, hrange⟩ : ∃ c₂,
      Yields (compileRange s e r) c₁ ⟨c₁.bindings.length, some id, r.tables⟩ c₂ := by
    rw [compileRange, hchain]
    exact ⟨_, yields_bind_iff.mpr ⟨_, c₁, hl, yields_bind_iff.mpr ⟨_, _, rfl, rfl⟩⟩⟩
  exact ⟨_, c₂, id, ⟨r, c₁, hr, hrange⟩, rfl⟩

end

/-! ### Mappings -/

/-- **A list is its collection**, in every mapping: in the places that take a value, and anywhere if
no whole table is listed: a `select` never is one, nor is a chain to a column. As a source a list is
its collection if it is taken at all; a list of a whole table is not, though the table itself can be
counted and ranged over. -/
theorem compileMapping_yields_iff_of_lists (s : Statement) :
    (∀ m m', ReplacesValue (Expr.lists s) m m' → ∀ c r c',
      Yields (compileMapping s m') c r c' ↔ Yields (compileMapping s m) c r c') ∧
    (∀ m m', ReplacesValue (Expr.lists s Expr.IsListed) m m' → ∀ c r c',
      Yields (compileMapping s m') c r c' → Yields (compileMapping s m) c r c') ∧
    (∀ source param body, (Expr.select source param body).NeverWhole s) ∧
    (∀ (e : Expr) path, e.rowPath? = some path → s.isWhole path = false → e.NeverWhole s) ∧
    ∀ scope e c,
      (∀ r c', Yields (compileValue s scope (.toList e)) c r c' ↔
        Yields (compileValue s scope e) c r c') ∧
      (∀ function r c', Yields (compile s scope (.aggregate function (.toList e))) c r c' ↔
        Yields (compile s scope (.aggregate function e)) c r c' ∧
          ¬ e.LeadsToTable s { scope with beneath := true } c) ∧
      (∀ param body r c', Yields (compile s scope (.select (.toList e) param body)) c r c' ↔
        Yields (compile s scope (.select e param body)) c r c' ∧ ¬ e.LeadsToTable s scope c) ∧
      (e.LeadsToTable s { scope with beneath := true } c →
        ∃ r c', Yields (compile s scope (.aggregate .count e)) c r c') ∧
      (e.LeadsToTable s scope c →
        ∃ range c' id, Ranges s scope e c range c' ∧ range.table? = some id) := by
  refine ⟨fun m m' h c r c' => ?_, fun m m' h c r c' => ?_, neverWhole_select s,
    fun e path => neverWhole_of_rowPath?, fun scope e c => ⟨?_, ?_, ?_, ?_, ?_⟩⟩
  · exact ((compileMapping_agrees (unseen_lists s) h).sameYields c r c').symm
  · exact (compileMapping_agrees (unseen_lists_isListed s) h).yields
  · exact compileValue_toList_sameYields s scope e c
  · exact fun function r c' => compile_aggregate_toList_yields_iff
  · exact fun param body r c' => compile_select_toList_yields_iff
  · exact Expr.LeadsToTable.exists_count
  · exact Expr.LeadsToTable.exists_ranges

/-- The sum of all points, the number of titles and the classes, with `list` around each
collection. -/
def pointsAndClasses (list : Expr → Expr) : Expr :=
  .object [
    ("points", .aggregate .sum
      (list (.select (.member .row "grades") "g" (.member (.var "g") "points")))),
    ("titles", .aggregate .count
      (list (.select (.member .row "classes") "c" (.member (.var "c") "title")))),
    ("classes", list (.member .row "classes"))]

/-- Values may be listed, also where they are counted. Classes may be listed where they are put in
place, but not where they are counted or ranged over. -/
theorem compileMapping_yields_iff_of_lists_school :
    ReplacesValue (Expr.lists school) (pointsAndClasses id) (pointsAndClasses .toList) ∧
    (∃ r c', Yields (compileMapping school (pointsAndClasses id)) {} r c' ∧
      Yields (compileMapping school (pointsAndClasses .toList)) {} r c') ∧
    (∃ r c', Yields (compile school .outermost (.aggregate .count (.member .row "classes"))) {}
      r c') ∧
    (∀ r c', ¬ Yields (compile school .outermost
      (.aggregate .count (.toList (.member .row "classes")))) {} r c') ∧
    ∀ r c', ¬ Yields (compile school .outermost
      (.select (.toList (.member .row "classes")) "c" (.member (.var "c") "title"))) {} r c' := by
  obtain ⟨hsame, -, hselects, -, hplaces⟩ := compileMapping_yields_iff_of_lists school
  obtain ⟨-, hcount, hselect, hcounted, -⟩ :=
    hplaces .outermost (.member .row "classes") {}
  have hreplaces : ReplacesValue (Expr.lists school) (pointsAndClasses id)
      (pointsAndClasses .toList) := by
    refine .expr (.inside (.object (.cons _ (.expr (.inside (.fold nofun (.value ?_))))
      (.cons _ (.expr (.inside (.count (.expr (.here ⟨?_, hselects _ _ _⟩)))))
        (.cons _ (.value ?_) .nil)))))
    all_goals exact ⟨rfl, rfl, rfl⟩
  -- The classes lead to their table, under an aggregate as elsewhere.
  have htable : ∀ beneath, (Expr.member .row "classes").LeadsToTable school
      { Scope.outermost with beneath := beneath } {} :=
    fun beneath => ⟨_, _, _, _, _, rfl, rfl⟩
  obtain ⟨r, c', h⟩ : ∃ r c', Yields (compileMapping school (pointsAndClasses id)) {} r c' :=
    ⟨_, _, rfl⟩
  refine ⟨hreplaces, ⟨r, c', h, (hsame _ _ hreplaces {} r c').mpr h⟩, hcounted (htable true),
    fun r c' hr => ?_, fun r c' hr => ?_⟩
  · exact ((hcount _ r c').mp hr).2 (htable true)
  · exact ((hselect _ _ r c').mp hr).2 (htable false)

end NestedQuery
