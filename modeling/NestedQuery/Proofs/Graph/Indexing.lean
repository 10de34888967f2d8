import NestedQuery.Proofs.Graph.Push

/-!
# Lookups that stay in range

Building looks things up by their places: levels, row numbers and elements. `Graph.Checked.push`
does what `Graph.push` does, but a place that is out of range breaks an invariant there, where
`Graph.push` goes on with a default.

`Graph.InRange` says that what a graph holds fits its plan. Over a plan that is well formed a graph
in range stays in range whatever row comes, whether it is refused or not; every row runs the same
with and without checks, and none breaks an invariant (`runsAs_push`). So no lookup is ever out of
range, whatever rows a graph has seen (`checked_push_after`).
-/

namespace NestedQuery

/-! ### Conversions -/

namespace Value

theorem realDocument_eq_error {x : Float} {e : Error} (h : realDocument x = .error e) :
    ∃ c, e = .unconvertible c := by
  rw [realDocument] at h
  split at h
  · exact absurd h nofun
  · exact ⟨_, (Except.error.inj h).symm⟩

theorem integralDocument_eq_error {x : Float} {e : Error} (h : integralDocument x = .error e) :
    ∃ c, e = .unconvertible c := by
  rw [integralDocument] at h
  split at h
  · exact ⟨_, (Except.error.inj h).symm⟩
  · split at h
    · exact absurd h nofun
    · exact ⟨_, (Except.error.inj h).symm⟩

mutual

theorem natural_eq_error {v : Value} {e : Error} (h : v.natural = .error e) :
    ∃ c, e = .unconvertible c := by
  cases v with
  | real x => exact realDocument_eq_error h
  | list items =>
    rw [natural] at h
    cases hitems : naturalAll items with
    | error e' =>
      rw [hitems] at h
      exact Except.error.inj h ▸ naturalAll_eq_error hitems
    | ok ds =>
      rw [hitems] at h
      exact absurd h nofun
  | null | integer | text | blob | bool => exact absurd h nofun

theorem naturalAll_eq_error {vs : List Value} {e : Error} (h : naturalAll vs = .error e) :
    ∃ c, e = .unconvertible c := by
  cases vs with
  | nil => exact absurd h nofun
  | cons v vs =>
    rw [naturalAll] at h
    cases hv : v.natural with
    | error e' =>
      rw [hv] at h
      exact Except.error.inj h ▸ natural_eq_error hv
    | ok d =>
      rw [hv] at h
      cases hvs : naturalAll vs with
      | error e' =>
        rw [hvs] at h
        exact Except.error.inj h ▸ naturalAll_eq_error hvs
      | ok ds =>
        rw [hvs] at h
        exact absurd h nofun

end

theorem map_direct_eq_error {x : Result Document} {e : Error} (h : direct <$> x = .error e) :
    x = .error e := by
  cases x with
  | error e' => exact congrArg _ (Except.error.inj h)
  | ok d => exact absurd h nofun

/-- A cell that fails to convert cannot be converted; no invariant is broken. -/
theorem convert_eq_error {type : ValueType} {v : Value} {e : Error}
    (h : v.convert type = .error e) : ∃ c, e = .unconvertible c := by
  unfold convert at h
  split at h
  case h_2 => exact natural_eq_error (map_direct_eq_error h)
  case h_4 => exact integralDocument_eq_error (map_direct_eq_error h)
  case h_6 | h_7 => exact realDocument_eq_error (map_direct_eq_error h)
  case h_11 =>
    split at h
    · exact absurd h nofun
    · exact ⟨_, (Except.error.inj h).symm⟩
  case h_14 => exact ⟨_, (Except.error.inj h).symm⟩
  all_goals exact absurd h nofun

end Value

namespace Graph

open Build

/-! ### Building with checks -/

namespace Checked

/-- What a lookup has found. Without it the place is out of range. -/
def demand {α : Type} : Option α → Build α
  | some a => pure a
  | none => throw (.invariant (.other "index out of range"))

/-- `Graph.readCells` with checks. -/
def readCells (p : Plan) (ps : Positions) (r : Row) (level : Nat) :
    Build (List (Target × Document)) :=
  (p.columns.zipIdx.filter fun (c, _) => c.level == level).mapM fun (c, index) => do
    let position ← demand ps.columns[index]?
    readCell r index position c

/-- `Graph.emptySlot` with checks. -/
def emptySlot (p : Plan) (child : Nat) : Build ChildSlot := do
  let level ← demand p.levels[child]?
  return if level.single then .one none else .many []

/-- `Graph.create` with checks. -/
def create (p : Plan) (ps : Positions) (r : Row) (index : Nat) (level : Level) (id : Int64)
    (witnesses : List (Option Int64)) : Build Nat := do
  let cells ← readCells p ps r index
  let children ← demand p.childLists[index]?
  let slots ← children.mapM (emptySlot p)
  let place := (← get).nodes.length
  let n : Node := ⟨index, cells, slots, witnesses⟩
  modify fun g => { g with nodes := g.nodes ++ [n] }
  Build.say .debug .allocated
    ("allocated `" ++ level.table ++ "` element for row id " ++ toString id.toInt ++ " at `"
      ++ level.label ++ "`")
  return place

/-- `Graph.link` with checks. -/
def link (p : Plan) (parent? : Option Nat) (index : Nat) (level : Level) (place : Nat)
    (id : Int64) : Build Unit := do
  match parent? with
  | none => modify fun g => { g with roots := g.roots ++ [place] }
  | some parent =>
    let n ← demand (← get).nodes[parent]?
    let children ← demand p.childLists[n.level]?
    match children.idxOf? index with
    | none => throw (.invariant (.other "level is not a child of its parent"))
    | some i =>
      let slot ← demand n.slots[i]?
      if slot.isFull then throw (.crowded level.table level.label (.secondRow id))
      modify fun g => { g with nodes := g.nodes.modify parent (Node.fill i place) }

/-- `Graph.checkWitnesses` with checks, for the element at a place. -/
def checkWitnesses (p : Plan) (place : Nat) (now : List (Option Int64)) : Build Unit := do
  let n ← demand (← get).nodes[place]?
  let level ← demand p.levels[n.level]?
  match (n.witnesses.zip now).findIdx? fun (a, b) => a != b with
  | none => return ()
  | some i =>
    let w ← demand level.witnesses[i]?
    throw (.crowded w.table level.label .ambiguousValue)

/-- `Graph.visit` with checks. -/
def visit (p : Plan) (ps : Positions) (r : Row) (rowNumbers : List (Option Int64)) (index : Nat)
    (level : Level) (parent? : Option Nat) (chain : Chain) (id : Int64) : Build Nat := do
  let witnesses ← level.witnesses.mapM fun w => demand rowNumbers[w.rowId]?
  match (← get).index.lookup (index, chain) with
  | some place =>
    checkWitnesses p place witnesses
    return place
  | none =>
    let place ← create p ps r index level id witnesses
    enter index chain place
    link p parent? index level place id
    return place

/-- `Graph.above?` with checks. -/
def above (level : Level) (visited : List Visited) : Build (Option (Option Nat × Chain)) :=
  match level.parent? with
  | none => return some (none, [])
  | some i => do
    let v ← demand visited[i]?
    return v.map fun (place, chain) => (some place, chain)

/-- `Graph.visitLevel` with checks. -/
def visitLevel (p : Plan) (ps : Positions) (r : Row) (rowNumbers : List (Option Int64))
    (index : Nat) (visited : List Visited) (level : Level) : Build Visited := do
  match ← above level visited with
  | none => return none
  | some (parent?, above) =>
    match ← demand rowNumbers[level.rowId]? with
    | some id =>
      let place ← visit p ps r rowNumbers index level parent? (above ++ [id]) id
      return some (place, above ++ [id])
    | none =>
      if parent?.isNone then
        let name ← demand p.rowIds[level.rowId]?
        throw (.unconvertible (.nullRoot name))
      else return none

/-- `Graph.pushLevels` with checks. -/
def pushLevels (p : Plan) (ps : Positions) (r : Row) (rowNumbers : List (Option Int64))
    (index : Nat) (visited : List Visited) : List Level → Build Unit
  | [] => return ()
  | level :: rest => do
    let v ← visitLevel p ps r rowNumbers index visited level
    pushLevels p ps r rowNumbers (index + 1) (visited ++ [v]) rest

/-- `Graph.push` with checks. -/
def push (p : Plan) (r : Row) : Build Unit := do
  let ps ← resolvePositions p r
  pushLevels p ps r (ps.rowNumbers r) 0 [] p.levels

end Checked

/-! ### Graphs in range -/

/-- The levels of the elements, in order. -/
def levels (g : Graph) : List Nat :=
  g.nodes.map Node.level

/-- What the graph holds fits the plan: its positions are one for each column, its elements have
one slot for each child level and one row number for each witness, and its index leads to elements
of the right level. -/
structure InRange (p : Plan) (g : Graph) : Prop where
  /-- There is a position for each column. -/
  positions : ∀ ps, g.positions? = some ps →
    ps.columns.length = p.columns.length ∧ ps.rowIds.length = p.rowIds.length
  /-- Each element is of a level, with its slots and witnesses. -/
  node : ∀ n ∈ g.nodes, ∃ level, p.levels[n.level]? = some level ∧
    n.slots.length = (p.children n.level).length ∧ n.witnesses.length = level.witnesses.length
  /-- The index leads from a level to its elements. -/
  index : ∀ i k place, g.index.lookup (i, k) = some place → g.levels[place]? = some i

variable {p : Plan} {g g' : Graph}

theorem inRange_empty (p : Plan) : InRange p {} where
  positions _ h := absurd h nofun
  node _ h := absurd h List.not_mem_nil
  index _ _ _ h := absurd h nofun

/-- Positions, elements and index are all that counts. -/
theorem InRange.congr (h : InRange p g) (hpositions : g'.positions? = g.positions?)
    (hnodes : g'.nodes = g.nodes) (hindex : g'.index = g.index) : InRange p g' where
  positions := hpositions ▸ h.positions
  node := hnodes ▸ h.node
  index i k place hplace := by
    rw [levels, hnodes]
    exact h.index i k place (hindex ▸ hplace)

/-- Levels of elements that stay where they are. -/
theorem level?_of_grown_levels (h : g.levels <+: g'.levels) {place i : Nat}
    (hplace : g.levels[place]? = some i) : g'.levels[place]? = some i := by
  obtain ⟨rest, hrest⟩ := h
  rw [← hrest, List.getElem?_append_left (List.getElem?_eq_some_iff.mp hplace).1, hplace]

/-! ### Steps with and without checks -/

variable {α β : Type} {x y : Build α} {Q : α → Graph → Prop}

/-- From the graph `g`, the step `y` does what `x` does, and breaks no invariant. It leaves a graph
in range, where the elements that there were are still of their levels, and `Q` holds of what it
yields. -/
structure RunsAs (p : Plan) (g : Graph) (x y : Build α) (Q : α → Graph → Prop) : Prop where
  run_eq : y.run.run g = x.run.run g
  inRange : InRange p (x.run.run g).2
  levels : g.levels <+: (x.run.run g).2.levels
  yields : ∀ a g', Yields x g a g' → Q a g'
  not_invariant : ∀ v, ¬ Fails x g (.invariant v)

theorem runsAs_pure (hg : InRange p g) {a : α} (hQ : Q a g) : RunsAs p g (pure a) (pure a) Q where
  run_eq := rfl
  inRange := hg
  levels := List.prefix_rfl
  yields _ _ h := by
    obtain ⟨rfl, rfl⟩ := yields_pure_iff.mp h
    exact hQ
  not_invariant _ := not_fails_pure

theorem runsAs_throw (hg : InRange p g) {e : Error} (he : ∀ v, e ≠ .invariant v) :
    RunsAs p g (throw e) (throw e : Build α) Q where
  run_eq := rfl
  inRange := hg
  levels := List.prefix_rfl
  yields _ _ h := absurd h not_yields_throw
  not_invariant v h := he v (fails_throw_iff.mp h)

theorem runsAs_modify {f : Graph → Graph} (hg : InRange p (f g))
    (hlevels : g.levels <+: (f g).levels) {Q : Unit → Graph → Prop} (hQ : Q () (f g)) :
    RunsAs p g (modify f) (modify f) Q where
  run_eq := rfl
  inRange := hg
  levels := hlevels
  yields _ _ h := by
    obtain rfl := yields_modify_iff.mp h
    exact hQ
  not_invariant _ := not_fails_modify

theorem RunsAs.get_left {f : Graph → Build α} (h : RunsAs p g (f g) y Q) :
    RunsAs p g (get >>= f) y Q :=
  ⟨h.run_eq, h.inRange, h.levels, h.yields, h.not_invariant⟩

theorem RunsAs.get_right {f : Graph → Build α} (h : RunsAs p g x (f g) Q) :
    RunsAs p g x (get >>= f) Q :=
  ⟨h.run_eq, h.inRange, h.levels, h.yields, h.not_invariant⟩

theorem RunsAs.mono {R : α → Graph → Prop} (h : RunsAs p g x y Q)
    (hQ : ∀ a g', g.levels <+: g'.levels → Q a g' → R a g') : RunsAs p g x y R :=
  ⟨h.run_eq, h.inRange, h.levels, fun a g' hx => hQ a g' (by
    have hlevels := h.levels
    rwa [show x.run.run g = (.ok a, g') from hx] at hlevels) (h.yields a g' hx), h.not_invariant⟩

/-- What runs after a step that succeeds. -/
theorem run_bind_of_ok {f : α → Build β} {a : α} (h : x.run.run g = (.ok a, g')) :
    (x >>= f).run.run g = (f a).run.run g' := by
  rw [ExceptT.run_bind, StateT.run_bind, h]
  rfl

theorem run_bind_of_error {f : α → Build β} {e : Error} (h : x.run.run g = (.error e, g')) :
    (x >>= f).run.run g = (.error e, g') := by
  rw [ExceptT.run_bind, StateT.run_bind, h]
  rfl

/-- **Steps after one another.** -/
theorem RunsAs.bind {f f' : α → Build β} {R : β → Graph → Prop} (h : RunsAs p g x y Q)
    (hf : ∀ a g', InRange p g' → g.levels <+: g'.levels → Q a g' → RunsAs p g' (f a) (f' a) R) :
    RunsAs p g (x >>= f) (y >>= f') R := by
  obtain ⟨hrun, hrange, hlevels, hyields, hinvariant⟩ := h
  -- Both runs stop with the first step, or both go on with its result.
  rcases hx : x.run.run g with ⟨e | a, g₁⟩
  · have hbind := run_bind_of_error (f := f) hx
    have hbind' := run_bind_of_error (f := f') (hrun.trans hx)
    rw [hx] at hrange hlevels
    refine ⟨hbind'.trans hbind.symm, hbind ▸ hrange, hbind ▸ hlevels, fun b g' hb => ?_,
      fun v hv => hinvariant v ?_⟩
    · rw [Yields, hbind] at hb
      exact absurd (congrArg Prod.fst hb) nofun
    · rw [Fails, hbind] at hv
      rw [Fails, hx]
      exact congrArg _ (Except.error.inj hv)
  · have hbind := run_bind_of_ok (f := f) hx
    have hbind' := run_bind_of_ok (f := f') (hrun.trans hx)
    rw [hx] at hrange hlevels
    have h := hf a g₁ hrange hlevels (hyields a g₁ hx)
    refine ⟨?_, ?_, ?_, fun b g' hb => h.yields b g' ?_, fun v hv => h.not_invariant v ?_⟩
    · rw [hbind, hbind', h.run_eq]
    · exact hbind ▸ h.inRange
    · exact hbind ▸ hlevels.trans h.levels
    · rwa [Yields, hbind] at hb
    · rwa [Fails, hbind] at hv

theorem runsAs_ofResult (hg : InRange p g) {z : Result α}
    (hz : ∀ e, z = .error e → ∀ v, e ≠ .invariant v) :
    RunsAs p g (ofResult z) (ofResult z) fun _ g' => g' = g := by
  cases z with
  | error e => exact runsAs_throw hg (hz e rfl)
  | ok a => exact runsAs_pure hg rfl

/-- Messages change nothing that counts. -/
theorem runsAs_messages {f : Graph → Graph} (hg : InRange p g) (hf : SameElements g (f g)) :
    RunsAs p g (modify f) (modify f) fun _ g' => SameElements g g' := by
  obtain ⟨warned, log, heq⟩ := hf
  refine runsAs_modify ?_ ?_ ⟨warned, log, heq⟩ <;> rw [heq]
  · exact hg.congr rfl rfl rfl
  · exact List.prefix_rfl

theorem runsAs_mapM {γ : Type} {f f' : γ → Build α} {l : List γ} (hg : InRange p g)
    (hf : ∀ c ∈ l, ∀ g', InRange p g' → RunsAs p g' (f c) (f' c) fun _ _ => True) :
    RunsAs p g (l.mapM f) (l.mapM f') fun _ _ => True := by
  induction l generalizing g with
  | nil => exact runsAs_pure hg trivial
  | cons c l ih =>
    rw [List.mapM_cons, List.mapM_cons]
    refine (hf c (List.mem_cons_self ..) g hg).bind fun b g₁ hg₁ _ _ => ?_
    refine (ih hg₁ fun c' hc' => hf c' (List.mem_cons_of_mem _ hc')).bind fun bs g₂ hg₂ _ _ => ?_
    exact runsAs_pure hg₂ trivial

namespace Checked

theorem mapM_demand {γ : Type} {f : γ → Option α} {h : γ → α} {l : List γ}
    (hf : ∀ c ∈ l, f c = some (h c)) : l.mapM (fun c => demand (f c)) = pure (l.map h) := by
  induction l with
  | nil => rfl
  | cons c l ih =>
    rw [List.mapM_cons, hf c (List.mem_cons_self ..),
      ih fun c' hc' => hf c' (List.mem_cons_of_mem _ hc')]
    rfl

end Checked

/-! ### Cells -/

theorem runsAs_readCell (hg : InRange p g) (r : Row) (index position : Nat) (c : PlanColumn) :
    RunsAs p g (readCell r index position c) (readCell r index position c) fun _ _ => True := by
  rw [readCell]
  cases r.get? position with
  | none => exact runsAs_throw hg (by rintro v ⟨⟩)
  | some cell =>
    refine (runsAs_ofResult hg fun e he v => ?_).bind fun converted g₁ hg₁ _ _ => ?_
    · obtain ⟨_, rfl⟩ := Value.convert_eq_error he
      rintro ⟨⟩
    · -- A warning changes messages only, of which the ranges say nothing.
      have hwarn : RunsAs p g₁ (warn index c) (warn index c) fun _ _ => True := by
        rw [warn]
        refine .get_left (.get_right ?_)
        split
        · exact runsAs_pure hg₁ trivial
        · refine (runsAs_messages hg₁ ⟨_, _, rfl⟩).bind fun _ g₂ hg₂ _ _ => ?_
          exact (runsAs_messages hg₂ ⟨_, _, rfl⟩).mono fun _ _ _ _ => trivial
      by_cases hinefficient : converted.inefficient
      · simp only [if_pos hinefficient]
        exact hwarn.bind fun _ g₂ hg₂ _ _ => runsAs_pure hg₂ trivial
      · simp only [if_neg hinefficient]
        exact runsAs_pure hg₁ trivial

/-- With a position for each column, the position of a column is where its place says. -/
theorem Checked.readCells_eq (p : Plan) {ps : Positions} (r : Row) (level : Nat)
    (hps : ps.columns.length = p.columns.length) :
    Checked.readCells p ps r level = Graph.readCells p ps r level := by
  -- The induction is on the columns that are left; `before` are the positions of those before.
  have hall : ∀ (cs : List PlanColumn) (before rest : List Nat), ps.columns = before ++ rest →
      rest.length = cs.length →
      ((cs.zipIdx before.length).filter fun x => x.1.level == level).mapM (fun x => do
          let position ← demand ps.columns[x.2]?
          readCell r x.2 position x.1) =
        (((cs.zip rest).zipIdx before.length).filter fun x => x.1.1.level == level).mapM
          fun x => readCell r x.2 x.1.2 x.1.1 := by
    intro cs
    induction cs with
    | nil => exact fun _ _ _ _ => rfl
    | cons c cs ih =>
      intro before rest heq hlength
      obtain ⟨position, rest, rfl⟩ := List.exists_cons_of_length_eq_add_one hlength
      have hnext := ih (before ++ [position]) rest (by rw [heq, List.append_cons])
        (Nat.succ.inj hlength)
      rw [List.length_append, List.length_singleton] at hnext
      have hposition : ps.columns[before.length]? = some position := by
        rw [heq, List.getElem?_append_right (Nat.le_refl _), Nat.sub_self]
        rfl
      rw [List.zipIdx_cons, List.zip_cons_cons, List.zipIdx_cons, List.filter_cons,
        List.filter_cons]
      by_cases hlevel : c.level == level
      · rw [if_pos hlevel, if_pos hlevel, List.mapM_cons, List.mapM_cons, hnext]
        simp only [hposition, demand, pure_bind]
      · rw [if_neg hlevel, if_neg hlevel, hnext]
  exact hall p.columns [] ps.columns rfl hps

theorem runsAs_readCells (hg : InRange p g) {ps : Positions} (r : Row) (level : Nat)
    (hps : ps.columns.length = p.columns.length) :
    RunsAs p g (readCells p ps r level) (Checked.readCells p ps r level) fun _ _ => True := by
  rw [Checked.readCells_eq p r level hps]
  exact runsAs_mapM hg fun _ _ _ hg' => runsAs_readCell hg' r _ _ _

/-! ### Elements -/

variable {ps : Positions} {r : Row} {index : Nat} {level : Level} {id : Int64}

/-- The slots of a new element, with checks. -/
theorem Checked.emptySlots_eq (hp : p.WellFormed) (hlevel : p.levels[index]? = some level) :
    (do let children ← demand p.childLists[index]?; children.mapM (Checked.emptySlot p)) =
      pure ((p.children index).map (Graph.emptySlot p)) := by
  have hlt := (List.getElem?_eq_some_iff.mp hlevel).1
  have hchildren : p.childLists[index]? = some (p.children index) := by
    have hlt' := hp.childLists_length.symm ▸ hlt
    rw [Plan.children, List.getElem?_eq_getElem hlt', Option.getD_some]
  rw [hchildren, demand, pure_bind]
  have hslot : ∀ child ∈ p.children index,
      Checked.emptySlot p child = pure (Graph.emptySlot p child) := by
    intro child hchild
    rw [hp.children_eq index hlt] at hchild
    obtain ⟨l, hl, -⟩ := Plan.mem_childLevels.mp hchild
    rw [Checked.emptySlot, Graph.emptySlot, hl, demand, pure_bind, Option.any_some]
  -- Each child is a level of the plan, so every demand in the loop is met.
  generalize p.children index = children at hslot
  induction children with
  | nil => rfl
  | cons child children ih =>
    rw [List.mapM_cons, hslot child (List.mem_cons_self ..),
      ih fun c hc => hslot c (List.mem_cons_of_mem _ hc)]
    rfl

/-- A new element is of its level. -/
theorem runsAs_create (hp : p.WellFormed) (hg : InRange p g)
    (hps : ps.columns.length = p.columns.length) (hlevel : p.levels[index]? = some level)
    {witnesses : List (Option Int64)} (hwitnesses : witnesses.length = level.witnesses.length) :
    RunsAs p g (create p ps r index level id witnesses)
      (Checked.create p ps r index level id witnesses)
      fun place g' => g'.levels[place]? = some index := by
  rw [create, Checked.create]
  refine (runsAs_readCells hg r index hps).bind fun cells g₁ hg₁ _ _ => ?_
  have hslots := Checked.emptySlots_eq hp hlevel
  rw [← bind_assoc, hslots, pure_bind]
  -- Both sides read the number of nodes before they add one.
  refine .get_left (.get_right ?_)
  have hnew : InRange p { g₁ with nodes := g₁.nodes ++
      [⟨index, cells, (p.children index).map (emptySlot p), witnesses⟩] } := by
    refine ⟨hg₁.positions, fun n hn => ?_, fun i k place hplace => ?_⟩
    · rcases List.mem_append.mp hn with hold | hnew
      · exact hg₁.node n hold
      · rw [List.mem_singleton.mp hnew]
        exact ⟨level, hlevel, List.length_map .., hwitnesses⟩
    · refine level?_of_grown_levels ?_ (hg₁.index i k place hplace)
      rw [levels, levels, List.map_append]
      exact List.prefix_append _ _
  have hprefix : g₁.levels <+: levels { g₁ with nodes := g₁.nodes ++
      [⟨index, cells, (p.children index).map (emptySlot p), witnesses⟩] } := by
    rw [levels, levels, List.map_append]
    exact List.prefix_append _ _
  -- The new node stands at the end, where the next place was.
  have hplace : (levels { g₁ with nodes := g₁.nodes ++
      [⟨index, cells, (p.children index).map (emptySlot p), witnesses⟩] })[g₁.nodes.length]? =
        some index := by
    rw [levels, List.map_append, ← List.length_map (f := Node.level)]
    exact List.getElem?_concat_length
  refine (runsAs_modify hnew hprefix (Q := fun _ g' => g'.levels[g₁.nodes.length]? = some index)
    hplace).bind fun _ g₂ hg₂ _ hQ => ?_
  refine (runsAs_messages hg₂ ⟨_, _, rfl⟩).bind fun _ g₃ hg₃ hlevels _ => ?_
  exact runsAs_pure hg₃ (level?_of_grown_levels hlevels hQ)

theorem runsAs_enter (hg : InRange p g) {k : Chain} {place : Nat}
    (hplace : g.levels[place]? = some index) :
    RunsAs p g (enter index k place) (enter index k place) fun _ _ => True := by
  refine runsAs_modify ⟨hg.positions, hg.node, fun i k' place' hlookup => ?_⟩ List.prefix_rfl
    trivial
  rw [List.lookup_cons] at hlookup
  split at hlookup
  · rename_i hkey
    obtain ⟨rfl, -⟩ := Prod.mk.inj (eq_of_beq hkey)
    exact Option.some.inj hlookup ▸ hplace
  · exact hg.index i k' place' hlookup

theorem levels_fill (g : Graph) (parent slot place : Nat) :
    levels { g with nodes := g.nodes.modify parent (Node.fill slot place) } = g.levels := by
  refine List.ext_getElem? fun i => ?_
  rw [levels, levels, List.getElem?_map, List.getElem?_map, List.getElem?_modify]
  cases g.nodes[i]? with
  | none => rfl
  | some n => by_cases hi : parent = i <;> simp [hi, Node.fill]

theorem InRange.fill (h : InRange p g) (parent slot place : Nat) :
    InRange p { g with nodes := g.nodes.modify parent (Node.fill slot place) } where
  positions := h.positions
  node n hn := by
    obtain ⟨i, hi⟩ := List.mem_iff_getElem?.mp hn
    rw [List.getElem?_modify, Option.map_eq_map, Option.map_eq_some_iff] at hi
    obtain ⟨m, hm, rfl⟩ := hi
    obtain ⟨level, hlevel, hslots, hwitnesses⟩ := h.node m (List.mem_of_getElem? hm)
    split
    · exact ⟨level, hlevel, (List.length_modify ..).trans hslots, hwitnesses⟩
    · exact ⟨level, hlevel, hslots, hwitnesses⟩
  index i k place' hplace := by
    rw [levels_fill]
    exact h.index i k place' hplace

/-- The parent of a new element is of the level that the new element's level hangs below, so there
is a slot for it. -/
theorem runsAs_link (hp : p.WellFormed) (hg : InRange p g) (hlevel : p.levels[index]? = some level)
    {parent? : Option Nat} {place : Nat}
    (hparent : ∀ parent, parent? = some parent →
      ∃ i, level.parent? = some i ∧ g.levels[parent]? = some i) :
    RunsAs p g (link p parent? index level place id) (Checked.link p parent? index level place id)
      fun _ _ => True := by
  cases parent? with
  | none =>
    exact runsAs_modify (hg.congr rfl rfl rfl) List.prefix_rfl trivial
  | some parent =>
    obtain ⟨i, hi, hplace⟩ := hparent parent rfl
    rw [levels, List.getElem?_map, Option.map_eq_some_iff] at hplace
    obtain ⟨n, hn, rfl⟩ := hplace
    have hlt := hp.parent_lt index level hlevel _ hi
    have hlength := (List.getElem?_eq_some_iff.mp hlevel).1
    -- The element above is of the parent level, which lists this level among its children.
    have hchild : index ∈ p.children n.level := by
      rw [hp.children_eq _ (hlt.trans hlength)]
      exact Plan.mem_childLevels.mpr ⟨level, hlevel, hi⟩
    obtain ⟨slot, hslot⟩ := Option.isSome_iff_exists.mp (List.isSome_idxOf?.mpr hchild)
    have hchildren : p.childLists[n.level]? = some (p.children n.level) := by
      have hlt' := hp.childLists_length.symm ▸ hlt.trans hlength
      rw [Plan.children, List.getElem?_eq_getElem hlt', Option.getD_some]
    obtain ⟨_, -, hslots, -⟩ := hg.node n (List.mem_of_getElem? hn)
    obtain ⟨hslotLt, -, -⟩ := List.idxOf?_eq_some_iff.mp hslot
    have hslotAt := List.getElem?_eq_getElem (hslots ▸ hslotLt)
    have hfound : g.slotFor? p index parent = some (n, slot) := by
      rw [slotFor?, hn]
      simp only [Option.bind_eq_bind, Option.bind_some, hslot]
      rfl
    rw [link, Checked.link]
    refine .get_left (.get_right ?_)
    simp only [hfound, hn, hchildren, hslot, hslotAt, Checked.demand, pure_bind, Option.any_some]
    -- What is left to both is the same test of a full slot.
    split
    · exact (runsAs_throw hg (Q := fun _ _ => False) (by rintro v ⟨⟩)).bind
        fun _ _ _ _ hfalse => hfalse.elim
    · exact runsAs_modify (hg.fill parent slot place) (levels_fill g parent slot place ▸
        List.prefix_rfl) trivial

/-! ### Visits -/

/-- The first place where two lists differ says which witness is in disagreement. -/
theorem disagreement?_eq (ws : List Witness) (seen now : List (Option Int64)) :
    disagreement? ws seen now =
      ((seen.zip now).findIdx? fun x => x.1 != x.2).bind fun i => ws[i]? := by
  induction ws generalizing seen now with
  | nil => simp [disagreement?]
  | cons w ws ih =>
    cases seen with
    | nil => rfl
    | cons a seen =>
      cases now with
      | nil => rfl
      | cons b now =>
        rw [disagreement?, List.zip_cons_cons, List.findIdx?_cons]
        by_cases hab : a = b
        · simp only [hab, if_true, bne_self_eq_false, Bool.false_eq_true, if_false, ih,
            Option.bind_map]
          rfl
        · simp [hab]

/-- The witnesses of a known element, with checks. -/
theorem runsAs_checkWitnesses (hg : InRange p g) (hlevel : p.levels[index]? = some level)
    {place : Nat} (hplace : g.levels[place]? = some index) (now : List (Option Int64)) :
    RunsAs p g (ofResult (checkWitnesses level (g.witnessesAt place) now))
      (Checked.checkWitnesses p place now) fun _ _ => True := by
  rw [levels, List.getElem?_map, Option.map_eq_some_iff] at hplace
  obtain ⟨n, hn, rfl⟩ := hplace
  obtain ⟨level', hlevel', -, hlength⟩ := hg.node n (List.mem_of_getElem? hn)
  -- The element was made for this very level, so it has as many witnesses as the level.
  obtain rfl := Option.some.inj (hlevel.symm.trans hlevel')
  have hwitnesses : g.witnessesAt place = n.witnesses := by
    rw [witnessesAt, hn]
    rfl
  rw [hwitnesses, checkWitnesses, disagreement?_eq, Checked.checkWitnesses]
  refine .get_right ?_
  simp only [hn, hlevel, Checked.demand, pure_bind]
  cases hfind : (n.witnesses.zip now).findIdx? fun x => x.1 != x.2 with
  | none => exact runsAs_pure hg trivial
  | some i =>
    have hi := (List.findIdx?_eq_some_iff_getElem.mp hfind).1
    rw [List.length_zip, hlength] at hi
    have hw := List.getElem?_eq_getElem (hi.trans_le (Nat.min_le_left _ _))
    simp only [Option.bind_some, hw, pure_bind]
    exact runsAs_throw hg (by rintro v ⟨⟩)

/-- The elements that the row has visited are of the levels where it has visited them. -/
def Fits (g : Graph) (visited : List Visited) : Prop :=
  ∀ (i place : Nat) (k : Chain), visited[i]? = some (some (place, k)) → g.levels[place]? = some i

/-- A visit yields an element of its level. -/
theorem runsAs_visit (hp : p.WellFormed) (hg : InRange p g)
    (hps : ps.columns.length = p.columns.length) (hlevel : p.levels[index]? = some level)
    {rowNumbers : List (Option Int64)} (hrows : rowNumbers.length = p.rowIds.length)
    {parent? : Option Nat} {k : Chain}
    (hparent : ∀ parent, parent? = some parent →
      ∃ i, level.parent? = some i ∧ g.levels[parent]? = some i) :
    RunsAs p g (visit p ps r rowNumbers index level parent? k id)
      (Checked.visit p ps r rowNumbers index level parent? k id)
      fun place g' => g'.levels[place]? = some index := by
  have hwitnesses : level.witnesses.mapM (fun w => Checked.demand rowNumbers[w.rowId]?) =
      pure (level.witnesses.map fun w => (rowNumbers[w.rowId]?).join) := by
    refine Checked.mapM_demand fun w hw => ?_
    have hlt := hp.witness_lt level (List.mem_of_getElem? hlevel) w hw
    rw [List.getElem?_eq_getElem (hrows ▸ hlt), Option.join_some]
  rw [visit, Checked.visit, hwitnesses, pure_bind]
  refine .get_left (.get_right ?_)
  cases hlookup : g.index.lookup (index, k) with
  | some place =>
    have hplace := hg.index index k place hlookup
    refine (runsAs_checkWitnesses hg hlevel hplace _).bind fun _ g₁ hg₁ hlevels _ => ?_
    exact runsAs_pure hg₁ (level?_of_grown_levels hlevels hplace)
  | none =>
    simp only [make]
    refine (runsAs_create hp hg hps hlevel (List.length_map ..)).bind
      fun place g₁ hg₁ hlevels₁ hplace => ?_
    refine (runsAs_enter hg₁ hplace).bind fun _ g₂ hg₂ hlevels₂ _ => ?_
    -- Elements above stay where they are while this one is made and entered.
    have hparent₂ : ∀ parent, parent? = some parent →
        ∃ i, level.parent? = some i ∧ g₂.levels[parent]? = some i := by
      intro parent heq
      obtain ⟨i, hi, hlevels⟩ := hparent parent heq
      exact ⟨i, hi, level?_of_grown_levels (hlevels₁.trans hlevels₂) hlevels⟩
    refine (runsAs_link hp hg₂ hlevel hparent₂).bind fun _ g₃ hg₃ hlevels₃ _ => ?_
    exact runsAs_pure hg₃ (level?_of_grown_levels (hlevels₂.trans hlevels₃) hplace)

variable {visited : List Visited}

theorem Checked.above_eq (hp : p.WellFormed) (hlevel : p.levels[index]? = some level)
    (hlength : visited.length = index) :
    Checked.above level visited = pure (above? level visited) := by
  rw [above, above?]
  cases hparent : level.parent? with
  | none => rfl
  | some i =>
    have hlt : i < visited.length := hlength ▸ hp.parent_lt index level hlevel i hparent
    simp only [List.getElem?_eq_getElem hlt, demand, pure_bind, Option.join_some]

/-- What a level hangs below is of the level's parent. -/
theorem Fits.parent (h : g.Fits visited) {parent? : Option Nat} {k : Chain}
    (habove : above? level visited = some (parent?, k)) :
    ∀ parent, parent? = some parent → ∃ i, level.parent? = some i ∧ g.levels[parent]? = some i := by
  intro parent heq
  rw [above?] at habove
  cases hparent : level.parent? with
  | none =>
    rw [hparent, Option.some.injEq, Prod.mk.injEq, heq] at habove
    cases habove.1
  | some i =>
    rw [hparent] at habove
    obtain ⟨⟨place, k'⟩, hvisited, hpair⟩ := Option.map_eq_some_iff.mp habove
    obtain ⟨rfl, -⟩ := Prod.mk.inj hpair
    rw [← Option.some.inj heq]
    exact ⟨i, rfl, h i place k' (Option.join_eq_some_iff.mp hvisited)⟩

theorem Fits.concat (h : g.Fits visited) (hlevels : g.levels <+: g'.levels) {v : Visited}
    (hv : ∀ place k, v = some (place, k) → g'.levels[place]? = some visited.length) :
    g'.Fits (visited ++ [v]) := by
  intro i place k hi
  rcases getElem?_concat_eq_some_iff.mp hi with hold | ⟨rfl, hlast⟩
  · exact level?_of_grown_levels hlevels (h i place k hold)
  · exact hv place k hlast.symm

theorem runsAs_visitLevel (hp : p.WellFormed) (hg : InRange p g)
    (hps : ps.columns.length = p.columns.length) (hlevel : p.levels[index]? = some level)
    {rowNumbers : List (Option Int64)} (hrows : rowNumbers.length = p.rowIds.length)
    (hlength : visited.length = index) (hvisited : g.Fits visited) :
    RunsAs p g (visitLevel p ps r rowNumbers index visited level)
      (Checked.visitLevel p ps r rowNumbers index visited level)
      fun v g' => ∀ place k, v = some (place, k) → g'.levels[place]? = some index := by
  have hrowId := hp.rowId_lt level (List.mem_of_getElem? hlevel)
  obtain ⟨rowNumber, hrowNumber⟩ : ∃ rowNumber, rowNumbers[level.rowId]? = some rowNumber :=
    ⟨_, List.getElem?_eq_getElem (hrows ▸ hrowId)⟩
  rw [visitLevel, Checked.visitLevel, Checked.above_eq hp hlevel hlength, pure_bind, hrowNumber,
    Option.join_some]
  -- After the level and its row number are found, both sides make the same distinctions.
  cases habove : above? level visited with
  | none => exact runsAs_pure hg (by rintro _ _ ⟨⟩)
  | some above =>
    obtain ⟨parent?, k⟩ := above
    simp only [Checked.demand, pure_bind]
    cases rowNumber with
    | none =>
      simp only
      split
      · rw [List.getElem?_eq_getElem hrowId, Option.getD_some]
        exact runsAs_throw hg (by rintro v ⟨⟩)
      · exact runsAs_pure hg (by rintro _ _ ⟨⟩)
    | some id =>
      refine (runsAs_visit hp hg hps hlevel hrows (hvisited.parent habove)).bind
        fun place g₁ hg₁ _ hplace => runsAs_pure hg₁ fun place' k' hv => ?_
      obtain ⟨rfl, -⟩ := Prod.mk.inj (Option.some.inj hv)
      exact hplace

theorem runsAs_pushLevels (hp : p.WellFormed) (hg : InRange p g)
    (hps : ps.columns.length = p.columns.length) {rowNumbers : List (Option Int64)}
    (hrows : rowNumbers.length = p.rowIds.length) {levels : List Level}
    (hlevels : p.levels.drop index = levels) (hlength : visited.length = index)
    (hvisited : g.Fits visited) :
    RunsAs p g (pushLevels p ps r rowNumbers index visited levels)
      (Checked.pushLevels p ps r rowNumbers index visited levels) fun _ _ => True := by
  induction levels generalizing index g visited with
  | nil => exact runsAs_pure hg trivial
  | cons level rest ih =>
    obtain ⟨hlevel, hrest⟩ := levels_drop_eq_cons hlevels
    rw [pushLevels_cons, Checked.pushLevels]
    refine (runsAs_visitLevel hp hg hps hlevel hrows hlength hvisited).bind
      fun v g₁ hg₁ hprefix hv => ?_
    refine ih hg₁ hrest ?_ (hvisited.concat hprefix (hlength ▸ hv))
    rw [List.length_append, hlength, List.length_singleton]

/-- Positions are missing only because columns are. -/
theorem positions_eq_error {header : List String} {e : Error} (h : p.positions header = .error e) :
    ∃ c, e = .unconvertible c := by
  have hfind : ∀ {name : String} {e : Error}, findColumn header name = .error e →
      ∃ c, e = .unconvertible c := by
    intro name e h
    rw [findColumn] at h
    split at h
    · cases h
    · exact ⟨_, (Except.error.inj h).symm⟩
  rw [Plan.positions] at h
  rcases Result.bind_eq_error_iff.mp h with hcolumns | ⟨columns, -, h⟩
  · obtain ⟨c, -, hc⟩ := Result.mapM_eq_error hcolumns
    exact hfind hc
  · rcases Result.bind_eq_error_iff.mp h with hrowIds | ⟨rowIds, -, h⟩
    · obtain ⟨name, -, hname⟩ := Result.mapM_eq_error hrowIds
      exact hfind hname
    · cases h

/-- The first row decides where the columns are. -/
theorem runsAs_resolvePositions (hg : InRange p g) (r : Row) :
    RunsAs p g (resolvePositions p r) (resolvePositions p r) fun ps _ =>
      ps.columns.length = p.columns.length ∧ ps.rowIds.length = p.rowIds.length := by
  rw [resolvePositions]
  refine .get_left (.get_right ?_)
  cases hknown : g.positions? with
  | some ps => exact runsAs_pure hg (hg.positions ps hknown)
  | none =>
    have hlengths : ∀ ps, p.positions r.columns = .ok ps →
        ps.columns.length = p.columns.length ∧ ps.rowIds.length = p.rowIds.length := by
      intro ps hps
      obtain ⟨hcolumns, hrowIds⟩ := positions_eq_ok hps
      exact ⟨hcolumns.length_eq.symm, hrowIds.length_eq.symm⟩
    cases hps : p.positions r.columns with
    | error e =>
      -- A column that is missing is an error of the row, not a broken invariant.
      refine (runsAs_throw hg (Q := fun _ _ => False) fun v => ?_).bind
        fun _ _ _ _ hfalse => hfalse.elim
      obtain ⟨_, rfl⟩ := positions_eq_error hps
      rintro ⟨⟩
    | ok ps =>
      rw [ofResult, pure_bind]
      refine (runsAs_modify ⟨fun qs hqs => ?_, hg.node, hg.index⟩ List.prefix_rfl
        (Q := fun _ _ => True) trivial).bind fun _ g₁ hg₁ _ _ => runsAs_pure hg₁ (hlengths ps hps)
      exact Option.some.inj hqs ▸ hlengths ps hps

theorem runsAs_push (hp : p.WellFormed) (hg : InRange p g) (r : Row) :
    RunsAs p g (push p r) (Checked.push p r) fun _ _ => True := by
  rw [push, Checked.push]
  refine (runsAs_resolvePositions hg r).bind fun ps g₁ hg₁ _ hps => ?_
  exact runsAs_pushLevels hp hg₁ hps.1 ((List.length_map ..).trans hps.2) List.drop_zero rfl
    fun _ _ _ h => by simp at h

/-- The graph after some rows, of which any may have been refused. -/
def after (p : Plan) (rows : List Row) : Graph :=
  rows.foldl (fun g r => ((push p r).run.run g).2) {}

theorem inRange_after (hp : p.WellFormed) (rows : List Row) : InRange p (after p rows) :=
  List.foldlRecOn rows _ (inRange_empty p) fun _ hg r _ => (runsAs_push hp hg r).inRange

/-- **No lookup is out of range**, and no invariant is broken, whatever rows have come before. -/
theorem checked_push_after (hp : p.WellFormed) (rows : List Row) (r : Row) :
    (Checked.push p r).run.run (after p rows) = (push p r).run.run (after p rows) ∧
      ∀ v, ¬ Fails (Checked.push p r) (after p rows) (.invariant v) := by
  have hpush := runsAs_push hp (inRange_after hp rows) r
  refine ⟨hpush.run_eq, fun v h => hpush.not_invariant v ?_⟩
  rwa [Fails, hpush.run_eq] at h

end Graph

end NestedQuery
