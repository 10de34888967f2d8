import NestedQuery.Proofs.Graph.Elements
import NestedQuery.Proofs.Result
import NestedQuery.Proofs.Yields

/-!
# The steps of building

What each step of `Graph.push` does to the elements when it succeeds.

* `readCells_yields`: reading cells changes neither elements nor positions, and yields the
  converted cells of the row (`Plan.cells?`).
* `visit_yields`: a visit leaves a known element alone, whose witnesses agree with the row, or
  makes exactly one new element, in a place that is free. Either way the graph goes on to
  represent its elements, and the visit yields the place of the element.
-/

namespace NestedQuery

/-! ### What a row holds -/

/-- The row number that a row has in the column of a name. -/
def Row.rowNumber? (r : Row) (name : String) : Option Int64 :=
  (r.find? name).bind Value.rowId?

/-- The document that a row has for a column of a plan: its first cell of that name, converted to
the column's type. -/
def Row.document? (r : Row) (c : PlanColumn) : Option Document :=
  (r.find? c.name).bind fun v => (v.convert c.type).toOption.map Converted.document

/-- The columns of the elements of a level. -/
def Plan.columnsAt (p : Plan) (i : Nat) : List PlanColumn :=
  p.columns.filter fun c => c.level == i

/-- The cells that a row has for an element of a level, if all of them convert. -/
def Plan.cells? (p : Plan) (r : Row) (i : Nat) : Option (List (Target × Document)) :=
  (p.columnsAt i).mapM fun c => (r.document? c).map fun d => (c.target, d)

/-- The row number that a row has at a place of the plan. -/
def Plan.numberAt? (p : Plan) (r : Row) (rowId : Nat) : Option Int64 :=
  (p.rowIds[rowId]?).bind r.rowNumber?

/-- The row numbers that a row has for the witnesses of a level. -/
def Plan.witnessNumbers (p : Plan) (r : Row) (level : Level) : List (Option Int64) :=
  level.witnesses.map fun w => p.numberAt? r w.rowId

/-! ### Steps -/

theorem Build.yields_ofResult_iff {α : Type} {x : Result α} {a : α} {g g' : Graph} :
    Yields (Build.ofResult x) g a g' ↔ x = .ok a ∧ g = g' := by
  cases x with
  | error e => simp only [Build.ofResult, not_yields_throw, reduceCtorEq, false_and]
  | ok b => rw [Build.ofResult, yields_pure_iff, Except.ok.injEq]

theorem Build.yields_say_iff {level : LogLevel} {code : LogCode} {text : String} {u : Unit}
    {g g' : Graph} :
    Yields (Build.say level code text) g u g' ↔
      { g with log := g.log ++ [⟨level, code, text⟩] } = g' :=
  yields_modify_iff

namespace Graph

open Build

/-- Two graphs with the same elements and positions; they may differ in their messages. -/
def SameElements (g g' : Graph) : Prop :=
  ∃ warned log, g' = { g with warned := warned, log := log }

theorem SameElements.refl (g : Graph) : SameElements g g := ⟨g.warned, g.log, rfl⟩

theorem SameElements.trans {g₁ g₂ g₃ : Graph} (h : SameElements g₁ g₂) (h' : SameElements g₂ g₃) :
    SameElements g₁ g₃ := by
  obtain ⟨_, _, rfl⟩ := h
  obtain ⟨warned, log, rfl⟩ := h'
  exact ⟨warned, log, rfl⟩

/-! ### Positions -/

theorem findColumn_eq_ok_iff {header : List String} {name : String} {i : Nat} :
    findColumn header name = .ok i ↔ header.idxOf? name = some i := by
  rw [findColumn]
  cases header.idxOf? name with
  | none => simp only [reduceCtorEq]
  | some j => rw [Except.ok.injEq, Option.some.injEq]

theorem positions_eq_ok {p : Plan} {header : List String} {ps : Positions}
    (h : p.positions header = .ok ps) :
    List.Forall₂ (fun c i => header.idxOf? c.name = some i) p.columns ps.columns ∧
      List.Forall₂ (fun name i => header.idxOf? name = some i) p.rowIds ps.rowIds := by
  rw [Plan.positions, Result.bind_eq_ok_iff] at h
  obtain ⟨columns, hcolumns, h⟩ := h
  obtain ⟨rowIds, hrowIds, h⟩ := Result.bind_eq_ok_iff.mp h
  obtain rfl := Result.pure_eq_ok_iff.mp h
  exact ⟨(Result.mapM_eq_ok_iff.mp hcolumns).imp fun _ _ => findColumn_eq_ok_iff.mp,
    (Result.mapM_eq_ok_iff.mp hrowIds).imp fun _ _ => findColumn_eq_ok_iff.mp⟩

/-- The row numbers are those of the columns of the plan. -/
theorem rowNumbers_getElem?_join {p : Plan} {r : Row} {ps : Positions}
    (h : p.positions r.columns = .ok ps) (i : Nat) :
    ((ps.rowNumbers r)[i]?).join = p.numberAt? r i := by
  have hrowIds := (positions_eq_ok h).2
  rw [Positions.rowNumbers, Plan.numberAt?]
  generalize p.rowIds = names at hrowIds
  generalize ps.rowIds = places at hrowIds
  induction hrowIds generalizing i with
  | nil => rfl
  | cons hplace _ ih =>
    cases i with
    | zero =>
      show (r.get? _).bind Value.rowId? = ((r.columns.idxOf? _).bind r.get?).bind Value.rowId?
      rw [hplace]
      rfl
    | succ i => exact ih i

theorem resolvePositions_yields {p : Plan} {r : Row} {g g' : Graph} {ps : Positions}
    (h : Yields (resolvePositions p r) g ps g') :
    g' = { g with positions? := some ps } ∧
      (g.positions? = some ps ∨ g.positions? = none ∧ p.positions r.columns = .ok ps) := by
  rw [resolvePositions, yields_bind_iff] at h
  obtain ⟨_, _, hget, h⟩ := h
  obtain ⟨rfl, rfl⟩ := yields_get_iff.mp hget
  cases hknown : g.positions? with
  | some qs =>
    rw [hknown] at h
    obtain ⟨rfl, rfl⟩ := yields_pure_iff.mp h
    exact ⟨by rw [← hknown], Or.inl rfl⟩
  -- The first row resolves the positions, and they are kept for the others.
  | none =>
    rw [hknown] at h
    obtain ⟨qs, _, hres, h⟩ := yields_bind_iff.mp h
    obtain ⟨hpos, rfl⟩ := yields_ofResult_iff.mp hres
    obtain ⟨_, _, hmod, h⟩ := yields_bind_iff.mp h
    obtain ⟨rfl, rfl⟩ := yields_pure_iff.mp h
    rw [← yields_modify_iff.mp hmod]
    exact ⟨rfl, Or.inr ⟨rfl, hpos⟩⟩

/-! ### Cells -/

theorem warn_yields {index : Nat} {c : PlanColumn} {u : Unit} {g g' : Graph}
    (h : Yields (warn index c) g u g') : SameElements g g' := by
  rw [warn, yields_bind_iff] at h
  obtain ⟨_, _, hget, h⟩ := h
  obtain ⟨rfl, rfl⟩ := yields_get_iff.mp hget
  split at h
  · obtain ⟨-, rfl⟩ := yields_pure_iff.mp h
    exact SameElements.refl _
  · obtain ⟨_, _, hmod, hsay⟩ := yields_bind_iff.mp h
    rw [← yields_say_iff.mp hsay, ← yields_modify_iff.mp hmod]
    exact ⟨_, _, rfl⟩

/-- Reading a cell converts it, and warns if the conversion is inefficient. -/
theorem readCell_converts {r : Row} {index position : Nat} {c : PlanColumn} {g g' : Graph}
    {cell : Target × Document} (h : Yields (readCell r index position c) g cell g') :
    ∃ v converted, r.get? position = some v ∧ v.convert c.type = .ok converted ∧
      cell = (c.target, converted.document) ∧
      ((converted.inefficient = true ∧ Yields (warn index c) g () g') ∨
        (converted.inefficient = false ∧ g' = g)) := by
  rw [readCell] at h
  cases hv : r.get? position with
  | none => rw [hv] at h; exact absurd h not_yields_throw
  | some v =>
    rw [hv] at h
    obtain ⟨converted, _, hres, h⟩ := yields_bind_iff.mp h
    obtain ⟨hconv, rfl⟩ := yields_ofResult_iff.mp hres
    refine ⟨v, converted, rfl, hconv, ?_⟩
    cases hinefficient : converted.inefficient with
    | true =>
      simp only [if_pos hinefficient] at h
      obtain ⟨_, _, hwarn, h⟩ := yields_bind_iff.mp h
      obtain ⟨rfl, rfl⟩ := yields_pure_iff.mp h
      exact ⟨rfl, .inl ⟨rfl, hwarn⟩⟩
    | false =>
      simp only [hinefficient] at h
      obtain ⟨rfl, rfl⟩ := yields_pure_iff.mp h
      exact ⟨rfl, .inr ⟨rfl, rfl⟩⟩

/-- A cell that is read is the row's document for its column, at the column's target. -/
theorem readCell_yields {r : Row} {index position : Nat} {c : PlanColumn} {g g' : Graph}
    {cell : Target × Document} (hposition : r.columns.idxOf? c.name = some position)
    (h : Yields (readCell r index position c) g cell g') :
    SameElements g g' ∧ (r.document? c).map (fun d => (c.target, d)) = some cell := by
  obtain ⟨v, converted, hv, hconv, rfl, hwarned⟩ := readCell_converts h
  constructor
  · obtain ⟨-, hwarn⟩ | ⟨-, rfl⟩ := hwarned
    · exact warn_yields hwarn
    · exact SameElements.refl _
  · rw [Row.document?, Row.find?, hposition, Option.bind_some, hv, Option.bind_some, hconv]
    rfl

/-- A list of steps that leave the elements alone leaves them alone, and yields one result for
each. -/
theorem mapM_yields {α β : Type} {R : α → β → Prop} {f : α → Build β} {l : List α}
    (hf : ∀ a ∈ l, ∀ g b g', Yields (f a) g b g' → SameElements g g' ∧ R a b) {g g' : Graph}
    {bs : List β} (h : Yields (l.mapM f) g bs g') :
    SameElements g g' ∧ List.Forall₂ R l bs := by
  induction l generalizing g bs with
  | nil =>
    rw [List.mapM_nil] at h
    obtain ⟨rfl, rfl⟩ := yields_pure_iff.mp h
    exact ⟨SameElements.refl _, .nil⟩
  | cons a l ih =>
    rw [List.mapM_cons] at h
    obtain ⟨b, g₁, hb, h⟩ := yields_bind_iff.mp h
    obtain ⟨bs', g₂, hbs, h⟩ := yields_bind_iff.mp h
    obtain ⟨rfl, rfl⟩ := yields_pure_iff.mp h
    obtain ⟨hsame, hR⟩ := hf a (List.mem_cons_self ..) _ _ _ hb
    obtain ⟨hsame', hRs⟩ := ih (fun x hx => hf x (List.mem_cons_of_mem _ hx)) hbs
    exact ⟨hsame.trans hsame', .cons hR hRs⟩

theorem readCells_yields {p : Plan} {ps : Positions} {r : Row} {i : Nat} {g g' : Graph}
    {cells : List (Target × Document)} (hps : p.positions r.columns = .ok ps)
    (h : Yields (readCells p ps r i) g cells g') :
    SameElements g g' ∧ p.cells? r i = some cells := by
  have hcolumns := (positions_eq_ok hps).1
  obtain ⟨hlength, hzip⟩ := List.forall₂_iff_zip.mp hcolumns
  -- Columns are read with their positions beside them; without these they are `p.columnsAt i`.
  let read := (p.columns.zip ps.columns).zipIdx.filter fun column => column.1.1.level == i
  have hread : p.columnsAt i = read.map fun column => column.1.1 := by
    have hfirst : (p.columns.zip ps.columns).zipIdx.map (Prod.fst ∘ Prod.fst) = p.columns := by
      rw [← List.map_map, List.zipIdx_map_fst, List.map_fst_zip (Nat.le_of_eq hlength)]
    rw [Plan.columnsAt, ← hfirst, List.filter_map]
    rfl
  obtain ⟨hsame, hcells⟩ := mapM_yields (l := read)
    (R := fun column cell => (r.document? column.1.1).map (fun d => (column.1.1.target, d))
      = some cell)
    (fun column hcolumn _ _ _ hcell => by
      have hmem := List.mem_of_mem_filter hcolumn
      exact readCell_yields (hzip (List.fst_mem_of_mem_zipIdx hmem)) hcell) h
  refine ⟨hsame, ?_⟩
  rw [Plan.cells?, mapM_eq_some_iff, hread, List.forall₂_map_left_iff]
  exact hcells

/-! ### Elements -/

/-- Making an element adds a node at the end, with empty slots. -/
theorem create_yields {p : Plan} {ps : Positions} {r : Row} {index place : Nat} {level : Level}
    {id : Int64} {witnesses : List (Option Int64)} {g g' : Graph}
    (hps : p.positions r.columns = .ok ps)
    (h : Yields (create p ps r index level id witnesses) g place g') :
    place = g.nodes.length ∧ ∃ cells, p.cells? r index = some cells ∧ ∃ warned log,
      g' = { g with
        nodes := g.nodes ++ [⟨index, cells, (p.children index).map (emptySlot p), witnesses⟩]
        warned := warned
        log := log } := by
  rw [create] at h
  obtain ⟨cells, g₁, hread, h⟩ := yields_bind_iff.mp h
  obtain ⟨⟨warned, log, rfl⟩, hcells⟩ := readCells_yields hps hread
  obtain ⟨_, _, hget, h⟩ := yields_bind_iff.mp h
  obtain ⟨rfl, rfl⟩ := yields_get_iff.mp hget
  obtain ⟨_, _, hmod, h⟩ := yields_bind_iff.mp h
  obtain ⟨_, _, hsay, h⟩ := yields_bind_iff.mp h
  obtain ⟨rfl, rfl⟩ := yields_pure_iff.mp h
  rw [← yields_say_iff.mp hsay, ← yields_modify_iff.mp hmod]
  exact ⟨rfl, cells, hcells, warned, _, rfl⟩

/-- Linking an element makes it a root, or puts it into a slot that is not full. -/
theorem link_yields {p : Plan} {parent? : Option Nat} {index place : Nat} {level : Level}
    {id : Int64} {u : Unit} {g g' : Graph}
    (h : Yields (link p parent? index level place id) g u g') :
    parent? = none ∧ g' = { g with roots := g.roots ++ [place] } ∨
      ∃ parent n slot, parent? = some parent ∧ g.nodes[parent]? = some n ∧
        (p.children n.level).idxOf? index = some slot ∧
        (∀ s, n.slots[slot]? = some s → s.isFull = false) ∧
        g' = { g with nodes := g.nodes.modify parent (Node.fill slot place) } := by
  cases parent? with
  | none => exact Or.inl ⟨rfl, (yields_modify_iff.mp h).symm⟩
  | some parent =>
    rw [link] at h
    obtain ⟨_, _, hget, h⟩ := yields_bind_iff.mp h
    obtain ⟨rfl, rfl⟩ := yields_get_iff.mp hget
    cases hslot : g.slotFor? p index parent with
    | none =>
      rw [hslot] at h
      exact absurd h not_yields_throw
    | some found =>
      obtain ⟨n, slot⟩ := found
      rw [hslot] at h
      obtain ⟨m, hn, hm⟩ := Option.bind_eq_some_iff.mp hslot
      obtain ⟨i, hi, heq⟩ := Option.bind_eq_some_iff.mp hm
      obtain ⟨rfl, rfl⟩ := Prod.mk.inj (Option.some.inj heq)
      -- A full slot is refused, so after a link there was a place.
      by_cases hfull : (m.slots[i]?).any ChildSlot.isFull = true
      · simp only [if_pos hfull] at h
        obtain ⟨_, _, hthrow, -⟩ := yields_bind_iff.mp h
        exact absurd hthrow not_yields_throw
      · simp only [if_neg hfull] at h
        refine Or.inr ⟨parent, m, i, rfl, hn, hi, fun s hs => ?_, (yields_modify_iff.mp h).symm⟩
        rwa [hs, Option.any_some, Bool.not_eq_true] at hfull

/-- Making an element with a chain that is new makes the graph represent one element more. Its
place was free, if there is only one. -/
theorem make_yields {p : Plan} (hp : p.WellFormed) {ps : Positions} {r : Row} {index place : Nat}
    {level : Level} {parent? : Option Nat} {k : Chain} {id : Int64}
    {witnesses : List (Option Int64)} {g g' : Graph} {es : List Element}
    (hps : p.positions r.columns = .ok ps) (hg : g.Represents p es)
    (hlevel : p.levels[index]? = some level) (habove : Above es level parent? k)
    (hnew : ∀ e ∈ es, ¬ (e.level = index ∧ e.chain = k ++ [id]))
    (h : Yields (make p ps r index level parent? (k ++ [id]) id witnesses) g place g') :
    g'.positions? = g.positions? ∧ place = es.length ∧
      (level.parent?.isSome → level.single → ∀ e ∈ es, ¬ e.isBelow index k) ∧
      ∃ cells, p.cells? r index = some cells ∧
        g'.Represents p (es ++ [⟨index, k ++ [id], cells, witnesses⟩]) := by
  rw [make] at h
  obtain ⟨made, _, hcreate, h⟩ := yields_bind_iff.mp h
  obtain ⟨rfl, cells, hcells, warned, log, rfl⟩ := create_yields hps hcreate
  obtain ⟨_, _, henter, h⟩ := yields_bind_iff.mp h
  obtain rfl := yields_modify_iff.mp henter
  obtain ⟨_, _, hlink, h⟩ := yields_bind_iff.mp h
  obtain ⟨rfl, rfl⟩ := yields_pure_iff.mp h
  have hlength : g.nodes.length = es.length := by rw [hg.nodes, List.length_map]
  rw [hlength] at hlink
  rcases link_yields hlink with ⟨rfl, rfl⟩ | ⟨parent, n, slot, rfl, hn, hslot, hfree, rfl⟩
  · cases habove with
    | root hroot =>
      refine ⟨rfl, hlength, fun hsome => ?_, cells, hcells, ?_⟩
      · rw [hroot] at hsome
        exact absurd hsome (by simp)
      · exact hg.root hp hlevel hroot rfl hnew rfl rfl rfl
  · cases habove with
    | @below _ a hparent ha =>
      have hplace := (List.getElem?_eq_some_iff.mp ha).1
      rw [List.getElem?_append_left (hlength ▸ hplace), hg.nodes, List.getElem?_map, ha,
        Option.map_some, Option.some.injEq] at hn
      subst hn
      -- The slot that is filled is the one for the level of the new element.
      have hslot : (p.children a.level).idxOf? index = some slot := hslot
      obtain ⟨hlt, hchild, -⟩ := List.idxOf?_eq_some_iff.mp hslot
      have hslotOf : (p.nodeOf es a).slots[slot]? = some (p.slotOf es a.chain index) := by
        rw [Plan.nodeOf, List.getElem?_map, List.getElem?_eq_getElem hlt, hchild, Option.map_some]
      refine ⟨rfl, hlength, fun _ hsingle => ?_, cells, hcells, ?_⟩
      · refine Plan.isFull_slotOf (hfree _ hslotOf) ?_
        rw [Plan.isSingle, hlevel, Option.any_some]
        exact hsingle
      · exact hg.below hp hlevel hparent ha rfl hnew hslot rfl rfl rfl

/-- **What a visit does.** The element with the chain is known and agrees with the row about the
witnesses; or the chain is new and the element is made, in a place that is free. -/
theorem visit_yields {p : Plan} (hp : p.WellFormed) {ps : Positions} {r : Row} {index place : Nat}
    {level : Level} {parent? : Option Nat} {k : Chain} {id : Int64} {g g' : Graph}
    {es : List Element} (hps : p.positions r.columns = .ok ps) (hg : g.Represents p es)
    (hlevel : p.levels[index]? = some level) (habove : Above es level parent? k)
    (h : Yields (visit p ps r (ps.rowNumbers r) index level parent? (k ++ [id]) id) g place g') :
    g'.positions? = g.positions? ∧
      ((∃ e, es[place]? = some e ∧ e.level = index ∧ e.chain = k ++ [id] ∧
          checkWitnesses level e.witnesses (p.witnessNumbers r level) = .ok () ∧ g' = g) ∨
        (∀ e ∈ es, ¬ (e.level = index ∧ e.chain = k ++ [id])) ∧ place = es.length ∧
          (level.parent?.isSome → level.single → ∀ e ∈ es, ¬ e.isBelow index k) ∧
          ∃ cells, p.cells? r index = some cells ∧
            g'.Represents p (es ++ [⟨index, k ++ [id], cells, p.witnessNumbers r level⟩])) := by
  rw [visit] at h
  simp only [rowNumbers_getElem?_join hps] at h
  obtain ⟨_, _, hget, h⟩ := yields_bind_iff.mp h
  obtain ⟨rfl, rfl⟩ := yields_get_iff.mp hget
  cases hfind : g.index.lookup (index, k ++ [id]) with
  | some known =>
    rw [hfind] at h
    obtain ⟨_, _, hres, h⟩ := yields_bind_iff.mp h
    obtain ⟨hcheck, rfl⟩ := yields_ofResult_iff.mp hres
    obtain ⟨rfl, rfl⟩ := yields_pure_iff.mp h
    -- What the index finds is an element, with its own witnesses.
    obtain ⟨e, he, helevel, hchain⟩ := (hg.index _ _ _).mp hfind
    refine ⟨rfl, Or.inl ⟨e, he, helevel, hchain, ?_, rfl⟩⟩
    rw [witnessesAt, hg.nodes, List.getElem?_map, he] at hcheck
    exact hcheck
  | none =>
    rw [hfind] at h
    have hnew := hg.new_of_lookup hfind
    obtain ⟨hpositions, hplace, hfree, hmade⟩ := make_yields hp hps hg hlevel habove hnew h
    exact ⟨hpositions, Or.inr ⟨hnew, hplace, hfree, hmade⟩⟩

end Graph

end NestedQuery
