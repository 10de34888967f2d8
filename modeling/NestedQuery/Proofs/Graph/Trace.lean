import Mathlib.Data.List.Induction
import NestedQuery.Proofs.Graph.Indexing
import NestedQuery.Proofs.Graph.Refusal

/-!
# The trace of a row

A row that fails leaves what it had made before. If its place is taken, it even leaves the element
that it had no place for: the element stands in the index, but hangs nowhere.

`Stage` says what a row does at one level, whatever comes of it, and `Trace` what it does at all of
them, in terms of elements only. A level that a row has passed once it passes again
(`Passes.mono`), and leaves it as it is.

* `push_run`: what `Graph.push` does to a graph is a trace of the elements that it represents.
* `represents_after`: after any rows, failed ones among them, the graph represents elements, to
  which further rows add others at the end.
-/

namespace NestedQuery

/-! ### Full slots -/

/-- Nothing changes where the item stays as it is. -/
theorem modify_of_fixed {α : Type} {l : List α} {f : α → α} {i : Nat} {a : α}
    (ha : l[i]? = some a) (hf : f a = a) : l.modify i f = l := by
  refine List.ext_getElem? fun j => ?_
  rw [List.getElem?_modify, Option.map_eq_map]
  by_cases hj : i = j
  · rw [← hj, ha, Option.map_some, if_pos rfl, hf]
  · simp only [if_neg hj, Option.map_id']

theorem ChildSlot.add_of_isFull {s : ChildSlot} (h : s.isFull = true) (place : Nat) :
    s.add place = s := by
  cases s with
  | many places => cases h
  | one place? =>
    obtain ⟨other, rfl⟩ := Option.isSome_iff_exists.mp h
    rfl

theorem Node.fill_of_isFull {n : Node} {slot : Nat} {s : ChildSlot} (hs : n.slots[slot]? = some s)
    (h : s.isFull = true) (place : Nat) : n.fill slot place = n := by
  rw [fill, modify_of_fixed hs (s.add_of_isFull h place)]

namespace Graph

open Build

variable {p : Plan} {ps : Positions} {r : Row} {g g' : Graph} {es es' : List Element}
  {numbers : List (Option Int64)} {level : Level} {visited : List Visited}

/-! ### Reading cells -/

/-- Whatever comes of the step, it leaves the elements alone; it fails only where something cannot
be converted. -/
def IsReading {α : Type} (x : Build α) : Prop :=
  ∀ g, SameElements g (x.run.run g).2 ∧
    ∀ e, (x.run.run g).1 = .error e → ∃ c, e = .unconvertible c

variable {α β : Type}

theorem isReading_pure (a : α) : IsReading (pure a) :=
  fun g => ⟨.refl g, nofun⟩

theorem isReading_throw (c : Unconvertible) : IsReading (throw (.unconvertible c) : Build α) :=
  fun g => ⟨.refl g, fun _ h => ⟨c, (Except.error.inj h).symm⟩⟩

theorem IsReading.bind {x : Build α} {f : α → Build β} (hx : IsReading x)
    (hf : ∀ a, IsReading (f a)) : IsReading (x >>= f) := by
  intro g
  obtain ⟨hsame, herror⟩ := hx g
  rcases h : x.run.run g with ⟨e | a, g₁⟩
  · rw [h] at hsame herror
    rw [run_bind_of_error h]
    exact ⟨hsame, fun e' he => herror e' (congrArg Except.error (Except.error.inj he))⟩
  · rw [h] at hsame
    rw [run_bind_of_ok h]
    exact ⟨hsame.trans (hf a g₁).1, (hf a g₁).2⟩

theorem isReading_ofResult {x : Result α} (hx : ∀ e, x = .error e → ∃ c, e = .unconvertible c) :
    IsReading (ofResult x) := by
  cases x with
  | ok a => exact isReading_pure a
  | error e =>
    obtain ⟨c, rfl⟩ := hx e rfl
    exact isReading_throw c

theorem isReading_warn (index : Nat) (c : PlanColumn) : IsReading (warn index c) := by
  refine fun g => ⟨?_, fun e he => absurd he (warn_not_fails g e)⟩
  obtain ⟨u, g', h⟩ := (yields_or_fails (warn index c) g).resolve_right
    fun ⟨e, he⟩ => warn_not_fails g e he
  rw [show (warn index c).run.run g = (.ok u, g') from h]
  exact warn_yields h

theorem isReading_readCell (r : Row) (index position : Nat) (c : PlanColumn) :
    IsReading (readCell r index position c) := by
  rw [readCell]
  cases r.get? position with
  | none => exact isReading_throw _
  | some cell =>
    refine (isReading_ofResult fun e => Value.convert_eq_error).bind fun converted => ?_
    by_cases hinefficient : converted.inefficient
    · simp only [if_pos hinefficient]
      exact (isReading_warn index c).bind fun _ => isReading_pure _
    · simp only [if_neg hinefficient]
      exact isReading_pure _

theorem isReading_mapM {f : α → Build β} (hf : ∀ a, IsReading (f a)) (l : List α) :
    IsReading (l.mapM f) := by
  induction l with
  | nil => exact isReading_pure []
  | cons a l ih =>
    rw [List.mapM_cons]
    exact (hf a).bind fun b => ih.bind fun bs => isReading_pure _

theorem isReading_readCells (p : Plan) (ps : Positions) (r : Row) (level : Nat) :
    IsReading (readCells p ps r level) :=
  isReading_mapM (fun _ => isReading_readCell _ _ _ _) _

/-- An element is made at the end, or its cells cannot be read. -/
theorem create_run (p : Plan) (ps : Positions) (r : Row) (index : Nat) (level : Level) (id : Int64)
    (now : List (Option Int64)) (g : Graph) :
    (∃ c g', (create p ps r index level id now).run.run g = (.error (.unconvertible c), g') ∧
      SameElements g g') ∨
    ∃ cells warned log, (create p ps r index level id now).run.run g = (.ok g.nodes.length,
      { g with
        nodes := g.nodes ++ [⟨index, cells, (p.children index).map (emptySlot p), now⟩]
        warned := warned
        log := log }) := by
  obtain ⟨hsame, herror⟩ := isReading_readCells p ps r index g
  rw [create]
  rcases h : (readCells p ps r index).run.run g with ⟨e | cells, g₁⟩
  · rw [h] at hsame herror
    obtain ⟨c, rfl⟩ := herror e rfl
    exact .inl ⟨c, g₁, run_bind_of_error h, hsame⟩
  · rw [h] at hsame
    obtain ⟨warned, log, hg₁⟩ := hsame
    obtain rfl : g₁ = { g with warned := warned, log := log } := hg₁
    exact .inr ⟨cells, warned, _, run_bind_of_ok h⟩

/-! ### Levels -/

/-- The row numbers that a row has for the witnesses of a level. -/
def witnessesOf (numbers : List (Option Int64)) (level : Level) : List (Option Int64) :=
  level.witnesses.map fun w => (numbers[w.rowId]?).join

/-- A row has the chain `k ++ [id]` at a level, below the element at `parent?`. -/
structure Wants (numbers : List (Option Int64)) (level : Level) (visited : List Visited)
    (parent? : Option Nat) (k : Chain) (id : Int64) : Prop where
  /-- The row has something above the level. -/
  above : above? level visited = some (parent?, k)
  /-- Its row number is not null. -/
  number : (numbers[level.rowId]?).join = some id

/-- An element with a chain that no other element of its level has. -/
structure IsNew (es : List Element) (index : Nat) (chain : Chain) (e : Element) : Prop where
  /-- It is of the level. -/
  level_eq : e.level = index
  /-- It has the chain. -/
  chain_eq : e.chain = chain
  /-- No other element has both. -/
  new : ∀ a ∈ es, ¬ (a.level = e.level ∧ a.chain = e.chain)

/-- A row passes a level and leaves it as it is: it has no element there, or one that is known and
that agrees with it. The last argument is what it visits. -/
inductive Passes (numbers : List (Option Int64)) (es : List Element) (level : Level)
    (visited : List Visited) : Visited → Prop
  /-- The row has nothing above the level. -/
  | detached : above? level visited = none → Passes numbers es level visited none
  /-- The row number is null. -/
  | null {parent : Nat} {k : Chain} : above? level visited = some (some parent, k) →
      (numbers[level.rowId]?).join = none → Passes numbers es level visited none
  /-- The row has the chain of an element, and agrees with it about the witnesses. -/
  | known {parent? : Option Nat} {k : Chain} {id : Int64} {place : Nat} {e : Element} :
      Wants numbers level visited parent? k id → es[place]? = some e →
      e.level = visited.length → e.chain = k ++ [id] →
      disagreement? level.witnesses e.witnesses (witnessesOf numbers level) = none →
      Passes numbers es level visited (some (place, k ++ [id]))

/-- What a row does at a level: what comes of it, and the elements that there are afterwards. -/
inductive Stage (numbers : List (Option Int64)) (level : Level) (visited : List Visited)
    (es : List Element) : Result Visited → List Element → Prop
  /-- The level stays as it is. -/
  | passed {v : Visited} : Passes numbers es level visited v →
      Stage numbers level visited es (.ok v) es
  /-- The row makes an element, and there is a place for it. -/
  | made {parent? : Option Nat} {k : Chain} {id : Int64} {e : Element} :
      Wants numbers level visited parent? k id → IsNew es visited.length (k ++ [id]) e →
      e.witnesses = witnessesOf numbers level →
      (level.parent?.isSome → level.single → ∀ a ∈ es, ¬ a.isBelow visited.length k) →
      Stage numbers level visited es (.ok (some (es.length, k ++ [id]))) (es ++ [e])
  /-- The row makes an element, whose place is taken. -/
  | crowded {parent? : Option Nat} {k : Chain} {id : Int64} {e a : Element} :
      Wants numbers level visited parent? k id → IsNew es visited.length (k ++ [id]) e →
      e.witnesses = witnessesOf numbers level → level.parent?.isSome → level.single → a ∈ es →
      a.isBelow visited.length k →
      Stage numbers level visited es (.error (.crowded level.table level.label (.secondRow id)))
        (es ++ [e])
  /-- The row has the chain of an element, and disagrees with it about a witness. -/
  | ambiguous {parent? : Option Nat} {k : Chain} {id : Int64} {place : Nat} {e : Element}
      {w : Witness} : Wants numbers level visited parent? k id → es[place]? = some e →
      e.level = visited.length → e.chain = k ++ [id] →
      disagreement? level.witnesses e.witnesses (witnessesOf numbers level) = some w →
      Stage numbers level visited es (.error (.crowded w.table level.label .ambiguousValue)) es
  /-- The row cannot be read: a cell is not converted, or the root row number is null. -/
  | unread {c : Unconvertible} : Stage numbers level visited es (.error (.unconvertible c)) es

/-- What a row does at the levels that are left, one after another. -/
inductive Trace (numbers : List (Option Int64)) :
    List Visited → List Element → List Level → Result Unit → List Element → Prop
  | done {visited : List Visited} {es : List Element} : Trace numbers visited es [] (.ok ()) es
  | next {visited : List Visited} {es es₁ es' : List Element} {level : Level} {rest : List Level}
      {v : Visited} {result : Result Unit} : Stage numbers level visited es (.ok v) es₁ →
      Trace numbers (visited ++ [v]) es₁ rest result es' →
      Trace numbers visited es (level :: rest) result es'
  | failed {visited : List Visited} {es es' : List Element} {level : Level} {rest : List Level}
      {e : Error} : Stage numbers level visited es (.error e) es' →
      Trace numbers visited es (level :: rest) (.error e) es'

/-! ### A step and the elements -/

/-- From the graph `g`, the step leads to a graph with the same positions, which represents some
elements. `Q` says what comes of the step and which elements these are. -/
def Leads (p : Plan) (g : Graph) (x : Build α) (Q : Result α → List Element → Prop) : Prop :=
  (x.run.run g).2.positions? = g.positions? ∧
    ∃ es, (x.run.run g).2.Represents p es ∧ Q (x.run.run g).1 es

theorem leads_of_run {x : Build α} {Q : Result α → List Element → Prop} {a : Result α}
    (h : x.run.run g = (a, g')) (hpositions : g'.positions? = g.positions?)
    (hg : g'.Represents p es) (hQ : Q a es) : Leads p g x Q := by
  rw [Leads, h]
  exact ⟨hpositions, es, hg, hQ⟩

theorem Leads.bind {x : Build α} {f : α → Build β} {Q : Result α → List Element → Prop}
    {R : Result β → List Element → Prop} (hx : Leads p g x Q)
    (herror : ∀ e es, Q (.error e) es → R (.error e) es)
    (hf : ∀ a g' es, g'.Represents p es → Q (.ok a) es → Leads p g' (f a) R) :
    Leads p g (x >>= f) R := by
  obtain ⟨hpositions, es, hg, hQ⟩ := hx
  rcases h : x.run.run g with ⟨e | a, g₁⟩
  · rw [h] at hpositions hg hQ
    exact leads_of_run (run_bind_of_error h) hpositions hg (herror e es hQ)
  · rw [h] at hpositions hg hQ
    obtain ⟨hpositions', hf⟩ := hf a g₁ es hg hQ
    rw [Leads, run_bind_of_ok h]
    exact ⟨hpositions'.trans hpositions, hf⟩

/-- A step that succeeds stands before another. -/
theorem Leads.after_ok {x : Build α} {f : α → Build β} {Q : Result β → List Element → Prop} {a : α}
    (hx : x.run.run g = (.ok a, g')) (hpositions : g'.positions? = g.positions?)
    (h : Leads p g' (f a) Q) : Leads p g (x >>= f) Q := by
  rw [Leads, run_bind_of_ok hx]
  exact ⟨h.1.trans hpositions, h.2⟩

theorem Leads.get {f : Graph → Build α} {Q : Result α → List Element → Prop}
    (h : Leads p g (f g) Q) : Leads p g (get >>= f) Q :=
  h

theorem SameElements.represents (h : SameElements g g') (hg : g.Represents p es) :
    g'.Represents p es := by
  obtain ⟨_, _, rfl⟩ := h
  exact ⟨hg.nodes, hg.index, hg.roots, hg.above⟩

theorem SameElements.positions_eq (h : SameElements g g') : g'.positions? = g.positions? := by
  obtain ⟨_, _, rfl⟩ := h
  rfl

theorem slotFor?_eq_some {index place slot : Nat} {n : Node}
    (h : g.slotFor? p index place = some (n, slot)) :
    g.nodes[place]? = some n ∧ (p.children n.level).idxOf? index = some slot := by
  obtain ⟨m, hm, h⟩ := Option.bind_eq_some_iff.mp h
  obtain ⟨i, hi, heq⟩ := Option.bind_eq_some_iff.mp h
  obtain ⟨rfl, rfl⟩ := Prod.mk.inj (Option.some.inj heq)
  exact ⟨hm, hi⟩

/-- An element that is made and entered into the index is represented, linked or not: what it
cannot be linked into is full, and would stay as it is. -/
theorem leads_link (hp : p.WellFormed) {parent? : Option Nat} {k : Chain} {id : Int64}
    {e : Element} (hg : g.Represents p es) (hlevel : p.levels[visited.length]? = some level)
    (habove : Above es level parent? k) (he : IsNew es visited.length (k ++ [id]) e)
    (hnodes : g'.nodes = g.nodes ++ [p.newNode e])
    (hindex : g'.index = ((e.level, e.chain), es.length) :: g.index)
    (hroots : g'.roots = g.roots) :
    Leads p g' (link p parent? visited.length level es.length id) fun result es' =>
      es' = es ++ [e] ∧
        (result = .ok () ∧
            (level.parent?.isSome → level.single → ∀ a ∈ es, ¬ a.isBelow visited.length k) ∨
          result = .error (.crowded level.table level.label (.secondRow id)) ∧
            level.parent?.isSome ∧ level.single ∧ ∃ a ∈ es, a.isBelow visited.length k) := by
  obtain ⟨hindexed, hchain, hnew⟩ := he
  rw [← hindexed] at hlevel ⊢
  cases habove with
  | root hroot =>
    have hrun : (link p none e.level level es.length id).run.run g' =
        (.ok (), { g' with roots := g'.roots ++ [es.length] }) := rfl
    refine leads_of_run hrun rfl (hg.root hp hlevel hroot hchain hnew hnodes hindex ?_)
      ⟨rfl, .inl ⟨rfl, ?_⟩⟩
    · exact congrArg (· ++ _) hroots
    · rw [hroot]
      nofun
  | @below parent a hparent ha =>
    obtain ⟨slot, hfound, hslotOf⟩ := slotFor?_of_above hp hg
      (hnodes ▸ List.prefix_append _ _ : g.nodes <+: g'.nodes) hlevel hparent ha
    obtain ⟨hnode, hslot⟩ := slotFor?_eq_some hfound
    have hsingle := Plan.isSingle_eq hlevel
    -- Filling the slot leaves nodes that represent the elements with the new one.
    have hbelow : ∀ {g'' : Graph},
        g''.nodes = (g.nodes ++ [p.newNode e]).modify parent (Node.fill slot es.length) →
        g''.index = g'.index → g''.roots = g'.roots → g''.Represents p (es ++ [e]) :=
      fun hnodes' hindex' hroots' => hg.below hp hlevel hparent ha hchain hnew hslot hnodes'
        (hindex'.trans hindex) (hroots'.trans hroots)
    have hget : (get : Build Graph).run.run g' = (.ok g', g') := rfl
    by_cases hfull : (p.slotOf es a.chain e.level).isFull = true
    · obtain ⟨htaken, hmem⟩ := Plan.isBelow_of_isFull_slotOf hfull
      have hrun : (link p (some parent) e.level level es.length id).run.run g' =
          (.error (.crowded level.table level.label (.secondRow id)), g') := by
        rw [link]
        refine (run_bind_of_ok hget).trans ?_
        simp only [hfound, hslotOf, Option.any_some, if_pos hfull]
        exact run_bind_of_error rfl
      refine leads_of_run hrun rfl (hbelow ?_ rfl rfl) ⟨rfl, .inr ⟨rfl, ?_, hsingle ▸ htaken, hmem⟩⟩
      · -- Nothing more fits into the slot.
        rw [← hnodes, modify_of_fixed hnode (Node.fill_of_isFull hslotOf hfull _)]
      · exact Option.isSome_of_eq_some hparent
    · have hrun : (link p (some parent) e.level level es.length id).run.run g' =
          (.ok (), { g' with nodes := g'.nodes.modify parent (Node.fill slot es.length) }) := by
        rw [link]
        refine (run_bind_of_ok hget).trans ?_
        simp only [hfound, hslotOf, Option.any_some, if_neg hfull]
        rfl
      refine leads_of_run hrun rfl (hbelow (congrArg (List.modify · _ _) hnodes) rfl rfl)
        ⟨rfl, .inl ⟨rfl, fun _ hs => ?_⟩⟩
      exact Plan.isFull_slotOf (Bool.not_eq_true _ ▸ hfull) (hsingle ▸ hs)

/-- Making an element with a chain that is new is a stage of the row. -/
theorem leads_make (hp : p.WellFormed) (hg : g.Represents p es)
    (hlevel : p.levels[visited.length]? = some level) {parent? : Option Nat} {k : Chain}
    {id : Int64} (hwants : Wants numbers level visited parent? k id)
    (habove : Above es level parent? k)
    (hnew : ∀ a ∈ es, ¬ (a.level = visited.length ∧ a.chain = k ++ [id])) :
    Leads p g (make p ps r visited.length level parent? (k ++ [id]) id (witnessesOf numbers level))
      fun result => Stage numbers level visited es (result.map fun place =>
        some (place, k ++ [id])) := by
  rw [make]
  -- Reading the cells may fail, which only changes messages.
  obtain ⟨c, g₁, hrun, hsame⟩ | ⟨cells, warned, log, hrun⟩ :=
    create_run p ps r visited.length level id (witnessesOf numbers level) g
  · exact leads_of_run (run_bind_of_error hrun) hsame.positions_eq (hsame.represents hg) .unread
  · let e : Element := ⟨visited.length, k ++ [id], cells, witnessesOf numbers level⟩
    have he : IsNew es visited.length (k ++ [id]) e := ⟨rfl, rfl, hnew⟩
    have hlength : g.nodes.length = es.length := by rw [hg.nodes, List.length_map]
    rw [hlength] at hrun
    have henter : ∀ g' : Graph, (enter visited.length (k ++ [id]) es.length).run.run g' =
      (.ok (), { g' with index := ((e.level, e.chain), es.length) :: g'.index }) := fun _ => rfl
    refine .after_ok hrun rfl (.after_ok (henter _) rfl ?_)
    refine Leads.bind (leads_link hp hg hlevel habove he ?hnodes ?hindex ?hroots)
      (fun e' es' h => ?_) fun _ g₂ es' hg₂ h => ?_
    case hnodes | hindex | hroots => rfl
    · obtain ⟨rfl, ⟨hok, -⟩ | ⟨herror, hparent, hsingle, a, ha, hbelow⟩⟩ := h
      · cases hok
      · obtain rfl := Except.error.inj herror
        exact .crowded hwants he rfl hparent hsingle ha hbelow
    · obtain ⟨rfl, ⟨-, hfree⟩ | ⟨herror, -⟩⟩ := h
      · exact leads_of_run rfl rfl hg₂ (.made hwants he rfl hfree)
      · cases herror

/-- A visit to an element that is known compares the witnesses and leaves the graph as it is. -/
theorem visit_run_of_known (hg : g.Represents p es) {parent? : Option Nat} {k : Chain} {id : Int64}
    {place : Nat} {e : Element} (he : es[place]? = some e) (hlevel : e.level = visited.length)
    (hchain : e.chain = k ++ [id]) :
    (visit p ps r numbers visited.length level parent? (k ++ [id]) id).run.run g =
      ((checkWitnesses level e.witnesses (witnessesOf numbers level)).map fun _ => place, g) := by
  have hget : (get : Build Graph).run.run g = (.ok g, g) := rfl
  have hwitnesses : g.witnessesAt place = e.witnesses := by
    rw [witnessesAt, hg.nodes, List.getElem?_map, he]
    rfl
  rw [visit]
  refine (run_bind_of_ok hget).trans ?_
  simp only [(hg.index _ _ _).mpr ⟨e, he, hlevel, hchain⟩, hwitnesses]
  show (ofResult (checkWitnesses level e.witnesses (witnessesOf numbers level)) >>= fun _ =>
    pure place).run.run g = _
  cases checkWitnesses level e.witnesses (witnessesOf numbers level) <;> rfl

/-- A visit is a stage of the row. -/
theorem leads_visit (hp : p.WellFormed) (hg : g.Represents p es)
    (hlevel : p.levels[visited.length]? = some level) {parent? : Option Nat} {k : Chain}
    {id : Int64} (hwants : Wants numbers level visited parent? k id)
    (habove : Above es level parent? k) :
    Leads p g (visit p ps r numbers visited.length level parent? (k ++ [id]) id)
      fun result => Stage numbers level visited es (result.map fun place =>
        some (place, k ++ [id])) := by
  cases hfind : g.index.lookup (visited.length, k ++ [id]) with
  | none =>
    have hnew := hg.new_of_lookup hfind
    rw [visit]
    refine .get ?_
    simp only [hfind]
    exact leads_make hp hg hlevel hwants habove hnew
  | some place =>
    obtain ⟨e, he, helevel, hechain⟩ := (hg.index _ _ _).mp hfind
    have hrun : (visit p ps r numbers visited.length level parent? (k ++ [id]) id).run.run g = _ :=
      visit_run_of_known hg he helevel hechain
    -- A known element passes or is refused as its witnesses agree with the row.
    rw [checkWitnesses] at hrun
    cases hdisagree : disagreement? level.witnesses e.witnesses (witnessesOf numbers level) with
    | none =>
      rw [hdisagree] at hrun
      exact leads_of_run hrun rfl hg (.passed (.known hwants he helevel hechain hdisagree))
    | some w =>
      rw [hdisagree] at hrun
      exact leads_of_run hrun rfl hg (.ambiguous hwants he helevel hechain hdisagree)

/-- What a row has visited stands among the elements. -/
def Stand (es : List Element) (visited : List Visited) : Prop :=
  ∀ (i place : Nat) (k : Chain), visited[i]? = some (some (place, k)) →
    ∃ e, es[place]? = some e ∧ e.level = i ∧ e.chain = k

theorem stand_nil (es : List Element) : Stand es [] :=
  fun _ _ _ h => absurd h (by simp)

/-- What stands above a level is what the row has visited at its parent. -/
theorem Stand.above (h : Stand es visited) {parent? : Option Nat} {k : Chain}
    (habove : above? level visited = some (parent?, k)) : Above es level parent? k :=
  (Visits.above ⟨rfl, h⟩ habove).2

/-- **What a row does at a level is a stage.** -/
theorem leads_visitLevel (hp : p.WellFormed) (hg : g.Represents p es)
    (hlevel : p.levels[visited.length]? = some level)
    (hvisited : Stand es visited) :
    Leads p g (visitLevel p ps r numbers visited.length visited level)
      (Stage numbers level visited es) := by
  rw [visitLevel]
  cases habove : above? level visited with
  | none => exact leads_of_run rfl rfl hg (.passed (.detached habove))
  | some above =>
    obtain ⟨parent?, k⟩ := above
    cases hnumber : (numbers[level.rowId]?).join with
    | none =>
      cases parent? with
      | none => exact leads_of_run rfl rfl hg .unread
      | some parent => exact leads_of_run rfl rfl hg (.passed (.null habove hnumber))
    | some id =>
      refine (leads_visit hp hg hlevel ⟨habove, hnumber⟩ (hvisited.above habove)).bind
        (fun _ _ h => h) fun place g₁ es₁ hg₁ h => leads_of_run rfl rfl hg₁ h

/-! ### Passing a level -/

theorem Stage.grows {result : Result Visited} (h : Stage numbers level visited es result es') :
    es <+: es' := by
  cases h with
  | passed | ambiguous | unread => exact List.prefix_rfl
  | made | crowded => exact List.prefix_append _ _

theorem getElem?_of_grown (h : es <+: es') {place : Nat} {e : Element} (he : es[place]? = some e) :
    es'[place]? = some e := by
  obtain ⟨rest, rfl⟩ := h
  rw [List.getElem?_append_left (List.getElem?_eq_some_iff.mp he).1, he]

/-- Later elements do not stand in the way of a row. -/
theorem Passes.mono {v : Visited} (h : Passes numbers es level visited v) (hes : es <+: es') :
    Passes numbers es' level visited v := by
  cases h with
  | detached habove => exact .detached habove
  | null habove hnumber => exact .null habove hnumber
  | known hwants he hlevel hchain hagree =>
    exact .known hwants (getElem?_of_grown hes he) hlevel hchain hagree

theorem disagreement?_self (ws : List Witness) (now : List (Option Int64)) :
    disagreement? ws now now = none := by
  induction ws generalizing now with
  | nil => rfl
  | cons w ws ih =>
    cases now with
    | nil => rfl
    | cons a now => rw [disagreement?, if_pos rfl, ih]

/-- The element that a row has made is known to it. -/
theorem passes_of_isNew {parent? : Option Nat} {k : Chain} {id : Int64} {e : Element}
    (hwants : Wants numbers level visited parent? k id)
    (he : IsNew es visited.length (k ++ [id]) e)
    (hwitnesses : e.witnesses = witnessesOf numbers level) :
    Passes numbers (es ++ [e]) level visited (some (es.length, k ++ [id])) :=
  .known hwants List.getElem?_concat_length he.level_eq he.chain_eq
    (hwitnesses ▸ disagreement?_self ..)

/-- **A level that a row has passed once it passes again.** -/
theorem Stage.passes {v : Visited} (h : Stage numbers level visited es (.ok v) es') :
    Passes numbers es' level visited v := by
  cases h with
  | passed hpasses => exact hpasses
  | made hwants he hwitnesses _ => exact passes_of_isNew hwants he hwitnesses

/-- What a row has visited is there. -/
theorem Passes.element {v : Visited} (h : Passes numbers es level visited v) {place : Nat}
    {k : Chain} (hv : v = some (place, k)) :
    ∃ e, es[place]? = some e ∧ e.level = visited.length ∧ e.chain = k := by
  cases h with
  | detached | null => cases hv
  | known _ he hlevel hchain _ =>
    obtain ⟨rfl, rfl⟩ := Prod.mk.inj (Option.some.inj hv)
    exact ⟨_, he, hlevel, hchain⟩

/-- A row that passes a level leaves the graph as it is. -/
theorem Passes.run (hg : g.Represents p es) {v : Visited}
    (h : Passes numbers es level visited v) :
    (visitLevel p ps r numbers visited.length visited level).run.run g = (.ok v, g) := by
  rw [visitLevel]
  cases h with
  | detached habove => simp only [habove]; rfl
  | null habove hnumber => simp only [habove, hnumber]; rfl
  | known hwants he hlevel hchain hagree =>
    simp only [hwants.above, hwants.number]
    refine run_bind_of_ok ((visit_run_of_known hg he hlevel hchain).trans ?_)
    rw [checkWitnesses, hagree]
    rfl

/-- A row that disagrees with an element about a witness is refused. -/
theorem visitLevel_run_of_disagreement (hg : g.Represents p es) {parent? : Option Nat} {k : Chain}
    {id : Int64} {place : Nat} {e : Element} {w : Witness}
    (hwants : Wants numbers level visited parent? k id) (he : es[place]? = some e)
    (hlevel : e.level = visited.length) (hchain : e.chain = k ++ [id])
    (hdisagree : disagreement? level.witnesses e.witnesses (witnessesOf numbers level) = some w) :
    (visitLevel p ps r numbers visited.length visited level).run.run g =
      (.error (.crowded w.table level.label .ambiguousValue), g) := by
  rw [visitLevel]
  simp only [hwants.above, hwants.number]
  refine run_bind_of_error ((visit_run_of_known hg he hlevel hchain).trans ?_)
  rw [checkWitnesses, hdisagree]
  rfl

/-! ### All levels -/

/-- A row that has visited one more level. -/
theorem length_visited_concat (visited : List Visited) (v : Visited) :
    (visited ++ [v]).length = visited.length + 1 :=
  List.length_append

theorem Leads.mono {x : Build α} {Q R : Result α → List Element → Prop} (h : Leads p g x Q)
    (hQ : ∀ result es, Q result es → R result es) : Leads p g x R :=
  ⟨h.1, h.2.imp fun _ hes => ⟨hes.1, hQ _ _ hes.2⟩⟩

theorem Stand.concat (h : Stand es visited) {v : Visited}
    (hstage : Stage numbers level visited es (.ok v) es') : Stand es' (visited ++ [v]) :=
  (Visits.concat ⟨rfl, h⟩ hstage.grows fun _ _ hv => hstage.passes.element hv).element

/-- What a row does at the levels that are left is a trace. -/
theorem leads_pushLevels (hp : p.WellFormed) {levels : List Level} (hg : g.Represents p es)
    (hlevels : p.levels.drop visited.length = levels) (hvisited : Stand es visited) :
    Leads p g (pushLevels p ps r numbers visited.length visited levels)
      (Trace numbers visited es levels) := by
  induction levels generalizing g es visited with
  | nil => exact leads_of_run rfl rfl hg .done
  | cons level rest ih =>
    obtain ⟨hlevel, hrest⟩ := levels_drop_eq_cons hlevels
    rw [pushLevels_cons]
    refine (leads_visitLevel hp hg hlevel hvisited).bind (fun _ _ => .failed)
      fun v g₁ es₁ hg₁ hstage => ?_
    rw [← length_visited_concat visited v] at hrest ⊢
    exact (ih hg₁ hrest (hvisited.concat hstage)).mono fun _ _ => .next hstage

theorem Trace.grows {levels : List Level} {result : Result Unit}
    (h : Trace numbers visited es levels result es') : es <+: es' := by
  induction h with
  | done => exact List.prefix_rfl
  | next hstage _ ih => exact hstage.grows.trans ih
  | failed hstage => exact hstage.grows

/-- A row comes from one level to another and passes all between them. -/
inductive Reaches (numbers : List (Option Int64)) (es : List Element) :
    List Visited → List Level → List Visited → List Level → Prop
  | refl {visited : List Visited} {levels : List Level} :
      Reaches numbers es visited levels visited levels
  | pass {visited visited' : List Visited} {level : Level} {rest levels : List Level}
      {v : Visited} : Passes numbers es level visited v →
      Reaches numbers es (visited ++ [v]) rest visited' levels →
      Reaches numbers es visited (level :: rest) visited' levels

theorem Reaches.mono {levels rest : List Level} {visited' : List Visited}
    (h : Reaches numbers es visited levels visited' rest) (hes : es <+: es') :
    Reaches numbers es' visited levels visited' rest := by
  induction h with
  | refl => exact .refl
  | pass hpasses _ ih => exact .pass (hpasses.mono hes) ih

theorem Reaches.drop {levels rest : List Level} {visited' : List Visited}
    (h : Reaches numbers es visited levels visited' rest)
    (hlevels : p.levels.drop visited.length = levels) : p.levels.drop visited'.length = rest := by
  induction h with
  | refl => exact hlevels
  | pass _ _ ih =>
    refine ih ?_
    rw [length_visited_concat]
    exact (levels_drop_eq_cons hlevels).2

/-- The level that a row has come to is passed as well. -/
theorem Reaches.concat {levels rest : List Level} {visited' : List Visited} {v : Visited}
    (h : Reaches numbers es visited levels visited' (level :: rest))
    (hpasses : Passes numbers es level visited' v) :
    Reaches numbers es visited levels (visited' ++ [v]) rest := by
  generalize hlevels : level :: rest = reached at h
  induction h with
  | refl =>
    subst hlevels
    exact .pass hpasses .refl
  | pass hfirst _ ih => exact .pass hfirst (ih hpasses hlevels)

/-- **Reading a row goes on where it has come to**, as though it began there. -/
theorem Reaches.run (hg : g.Represents p es) {levels rest : List Level} {visited' : List Visited}
    (h : Reaches numbers es visited levels visited' rest) :
    (pushLevels p ps r numbers visited.length visited levels).run.run g =
      (pushLevels p ps r numbers visited'.length visited' rest).run.run g := by
  induction h with
  | refl => rfl
  | @pass visited _ _ _ _ v hpasses _ ih =>
    rw [pushLevels_cons, run_bind_of_ok (hpasses.run hg), ← length_visited_concat visited v, ih]

/-- A row fails at one level, and passes all before it when it comes again. -/
theorem Trace.exists_reaches {levels : List Level} {e : Error}
    (h : Trace numbers visited es levels (.error e) es') :
    ∃ visited' level rest es₁, Reaches numbers es' visited levels visited' (level :: rest) ∧
      Stage numbers level visited' es₁ (.error e) es' := by
  generalize hresult : Except.error e = result at h
  induction h with
  | done => cases hresult
  | next hstage htrace ih =>
    obtain ⟨visited', level, rest, es₁, hreaches, hfailed⟩ := ih hresult
    exact ⟨visited', level, rest, es₁, .pass (hstage.passes.mono htrace.grows) hreaches, hfailed⟩
  | failed hstage =>
    obtain rfl := Except.error.inj hresult
    exact ⟨_, _, _, _, .refl, hstage⟩

/-! ### Rows -/

/-- Once the positions are known, reading a row is visiting the levels. -/
theorem push_run_of_positions (hps : g.positions? = some ps) :
    (push p r).run.run g = (pushLevels p ps r (ps.rowNumbers r) 0 [] p.levels).run.run g := by
  have hget : (get : Build Graph).run.run g = (.ok g, g) := rfl
  have hresolve : (resolvePositions p r).run.run g = (.ok ps, g) := by
    rw [resolvePositions, run_bind_of_ok hget, hps]
    rfl
  rw [push, run_bind_of_ok hresolve]

/-- **What a row does is a trace** of the elements, whatever comes of it; or it lacks columns of the
plan, and is refused before it does anything. -/
theorem push_run (hp : p.WellFormed) (hg : g.Represents p es) (r : Row) :
    (∃ c, g.positions? = none ∧ (push p r).run.run g = (.error (.unconvertible c), g)) ∨
      ∃ ps, (∀ qs, g.positions? = some qs → qs = ps) ∧
        ((push p r).run.run g).2.positions? = some ps ∧
        ∃ es', ((push p r).run.run g).2.Represents p es' ∧
          Trace (ps.rowNumbers r) [] es p.levels ((push p r).run.run g).1 es' := by
  have hget : (get : Build Graph).run.run g = (.ok g, g) := rfl
  -- With the positions known, what the row does is what its levels do.
  have hleads : ∀ (ps : Positions) (g₁ : Graph), g₁.Represents p es →
      Leads p g₁ (pushLevels p ps r (ps.rowNumbers r) 0 [] p.levels)
        (Trace (ps.rowNumbers r) [] es p.levels) :=
    fun ps g₁ hg₁ => leads_pushLevels hp hg₁ List.drop_zero (stand_nil es)
  cases hknown : g.positions? with
  | some ps =>
    obtain ⟨hpositions, es', hg', htrace⟩ := hleads ps g hg
    rw [push_run_of_positions hknown]
    exact .inr ⟨ps, fun _ hqs => (Option.some.inj hqs).symm, hpositions.trans hknown, es', hg',
      htrace⟩
  | none =>
    cases hps : p.positions r.columns with
    | error e =>
      obtain ⟨c, rfl⟩ := positions_eq_error hps
      refine .inl ⟨c, rfl, run_bind_of_error ?_⟩
      rw [resolvePositions, run_bind_of_ok hget, hknown, hps]
      rfl
    | ok ps =>
      have hresolve : (resolvePositions p r).run.run g =
          (.ok ps, { g with positions? := some ps }) := by
        rw [resolvePositions, run_bind_of_ok hget, hknown, hps]
        rfl
      obtain ⟨hpositions, es', hg', htrace⟩ := hleads ps { g with positions? := some ps }
        ⟨hg.nodes, hg.index, hg.roots, hg.above⟩
      rw [push, run_bind_of_ok hresolve]
      exact .inr ⟨ps, fun _ hqs => absurd hqs (by simp), hpositions, es', hg', htrace⟩

theorem after_concat (p : Plan) (rows : List Row) (r : Row) :
    after p (rows ++ [r]) = ((push p r).run.run (after p rows)).2 :=
  List.foldl_append

/-- **Later rows only add elements**, at the end, and read the columns where they were. -/
theorem represents_after_append (hp : p.WellFormed) {rows : List Row}
    (hg : (after p rows).Represents p es) (more : List Row) :
    ∃ es', (after p (rows ++ more)).Represents p es' ∧ es <+: es' ∧
      ∀ ps, (after p rows).positions? = some ps →
        (after p (rows ++ more)).positions? = some ps := by
  induction more using List.reverseRecOn with
  | nil =>
    rw [List.append_nil]
    exact ⟨es, hg, List.prefix_rfl, fun _ => id⟩
  | append_singleton more r ih =>
    obtain ⟨es₁, hg₁, hes₁, hpositions₁⟩ := ih
    rw [← List.append_assoc, after_concat]
    obtain ⟨c, -, hrun⟩ | ⟨ps, hsame, hpositions, es', hg', htrace⟩ := push_run hp hg₁ r
    · rw [hrun]
      exact ⟨es₁, hg₁, hes₁, hpositions₁⟩
    · refine ⟨es', hg', hes₁.trans htrace.grows, fun qs hqs => ?_⟩
      rw [hpositions, hsame qs (hpositions₁ qs hqs)]

/-- **After any rows the graph represents elements**, also if some of the rows have failed. -/
theorem represents_after (hp : p.WellFormed) (rows : List Row) :
    ∃ es, (after p rows).Represents p es := by
  have hempty : (after p []).Represents p [] := represents_nil p
  obtain ⟨es, hg, -⟩ := represents_after_append hp hempty rows
  exact ⟨es, hg⟩

end Graph

end NestedQuery
