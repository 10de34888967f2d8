import NestedQuery.Graph.Log
import NestedQuery.Proofs.Graph.Flat
import NestedQuery.Proofs.Graph.Links

/-!
# Messages of building

While rows are read the graph says which elements it makes, and warns of columns whose cells had to
be turned from texts into bytes or back. What a step says is a function of the row and the level
(`Graph.told`); a row that is read keeps what has been said in accord with the elements
(`Graph.Tells`).

So the messages count the graph (`messages_of_forM_push`): there is one for each element that the
documents are read from, in the order in which the elements were made, and at most one for each
column, namely if some element has a turned cell there.
-/

namespace NestedQuery

/-! ### What is said -/

/-- Whether a value is turned from a text into bytes or back when it is converted to a type. -/
def Value.isTurned : ValueType → Value → Bool
  | .text, .blob _ => true
  | .bytes, .text _ => true
  | _, _ => false

theorem Value.inefficient_convert {type : ValueType} {v : Value} {c : Converted}
    (h : v.convert type = .ok c) : c.inefficient = v.isTurned type := by
  have hdirect : ∀ x : Result Document, direct <$> x = .ok c → c.inefficient = false := by
    intro x hx
    obtain ⟨d, -, rfl⟩ := Result.map_eq_ok_iff.mp hx
    rfl
  -- Bytes and texts are turned into each other; all other conversions are direct.
  cases v with
  | blob bytes =>
    cases type with
    | text =>
      rw [convert] at h
      cases hs : textOfBytes? bytes with
      | none => rw [hs] at h; cases h
      | some s => rw [hs] at h; cases h; rfl
    | any => exact hdirect _ h
    | bytes => cases h; rfl
    | _ => cases h
  | _ =>
    cases type <;> first
      | exact hdirect _ h
      | (obtain rfl := Except.ok.inj h; rfl)
      | cases h

/-- Whether the row has the cell of a column in the other form. -/
def Row.turns (r : Row) (c : PlanColumn) : Bool :=
  (r.find? c.name).any (Value.isTurned c.type)

/-- The warning of a column whose cells are turned. -/
def PlanColumn.turnWarning (c : PlanColumn) : LogEntry :=
  ⟨.warning, .inefficient, "column `" ++ c.name ++ "` converted to " ++ c.type.name
    ++ " from a different collection representation; select it as " ++ c.type.name ++ " directly"⟩

/-- The message of an element that is made. -/
def Level.allocation (level : Level) (id : Int64) : LogEntry :=
  ⟨.debug, .allocated, "allocated `" ++ level.table ++ "` element for row id "
    ++ toString id.toInt ++ " at `" ++ level.label ++ "`"⟩

namespace Plan

/-- The message of an element: its row id is the last one of its chain. -/
def allocation? (p : Plan) (e : Element) : Option LogEntry := do
  return (← p.levels[e.level]?).allocation (← e.chain.getLast?)

/-- The warning of the column at a place. -/
def turnWarning? (p : Plan) (i : Nat) : Option LogEntry :=
  (p.columns[i]?).map PlanColumn.turnWarning

/-- The columns of a level that a row has in the other form, with their places. -/
def turned (p : Plan) (r : Row) (level : Nat) : List (PlanColumn × Nat) :=
  p.columns.zipIdx.filter fun x => x.1.level == level && r.turns x.1

theorem mem_turned_iff {p : Plan} {r : Row} {level : Nat} {x : PlanColumn × Nat} :
    x ∈ p.turned r level ↔ p.columns[x.2]? = some x.1 ∧ x.1.level = level ∧ r.turns x.1 := by
  rw [turned, List.mem_filter, List.mem_zipIdx_iff_getElem?, Bool.and_eq_true, beq_iff_eq]

end Plan

namespace Graph

open Build

/-- The messages of a kind that are heard by a listener who asks for all levels. -/
def messages (g : Graph) (code : LogCode) : List LogEntry :=
  (g.log.filter (LogEntry.heard (some .debug))).filter fun m => m.code == code

theorem heard_debug (m : LogEntry) : m.heard (some .debug) = true := by
  rw [LogEntry.heard]
  exact decide_eq_true (Nat.zero_le _)

theorem messages_say (g : Graph) {m : LogEntry} {code : LogCode} (h : m.code = code) :
    messages { g with log := g.log ++ [m] } code = g.messages code ++ [m] := by
  rw [messages, List.filter_append, List.filter_append, List.filter_singleton, heard_debug,
    cond_true, List.filter_singleton, h, beq_self_eq_true, messages]
  rfl

theorem messages_say_of_ne (g : Graph) {m : LogEntry} {code : LogCode} (h : m.code ≠ code) :
    messages { g with log := g.log ++ [m] } code = g.messages code := by
  rw [messages, List.filter_append, List.filter_append, List.filter_singleton, heard_debug,
    cond_true, List.filter_singleton, beq_false_of_ne h, messages]
  exact List.append_nil _

/-- The graph after a warning of a column, which is given once. -/
def withWarning (g : Graph) (x : PlanColumn × Nat) : Graph :=
  if g.warned.contains x.2 then g
  else { g with warned := x.2 :: g.warned, log := g.log ++ [x.1.turnWarning] }

/-- The graph after what is said when a row makes an element. -/
def told (p : Plan) (r : Row) (index : Nat) (level : Level) (id : Int64) (g : Graph) : Graph :=
  let g₁ := (p.turned r index).foldl withWarning g
  { g₁ with log := g₁.log ++ [level.allocation id] }

/-- Two graphs that have said the same. -/
def SaysTheSame (g g' : Graph) : Prop :=
  g.warned = g'.warned ∧ g.log = g'.log

/-! ### What the steps say -/

theorem warn_tells {index : Nat} {c : PlanColumn} {u : Unit} {g g' : Graph}
    (h : Yields (warn index c) g u g') : g' = g.withWarning (c, index) := by
  rw [warn, yields_bind_iff] at h
  obtain ⟨_, _, hget, h⟩ := h
  obtain ⟨rfl, rfl⟩ := yields_get_iff.mp hget
  rw [withWarning]
  split at h
  · rename_i hwarned
    obtain ⟨-, rfl⟩ := yields_pure_iff.mp h
    rw [if_pos hwarned]
  · rename_i hwarned
    obtain ⟨_, _, hmod, hsay⟩ := yields_bind_iff.mp h
    rw [← yields_say_iff.mp hsay, ← yields_modify_iff.mp hmod, if_neg hwarned]
    rfl

theorem readCell_tells {r : Row} {index position : Nat} {c : PlanColumn} {g g' : Graph}
    {cell : Target × Document} (hposition : r.columns.idxOf? c.name = some position)
    (h : Yields (readCell r index position c) g cell g') :
    g' = if r.turns c then g.withWarning (c, index) else g := by
  obtain ⟨v, converted, hv, hconv, -, hwarned⟩ := readCell_converts h
  have hturned : r.turns c = converted.inefficient := by
    rw [Row.turns, Row.find?, hposition, Option.bind_some, hv, Option.any_some,
      Value.inefficient_convert hconv]
  obtain ⟨hinefficient, hwarn⟩ | ⟨hinefficient, rfl⟩ := hwarned
  · rw [hturned, hinefficient]
    exact warn_tells hwarn
  · rw [hturned, hinefficient]
    rfl

/-- Steps that change the graph by a function change it by a fold. -/
theorem mapM_eq_foldl {α β : Type} {step : Graph → α → Graph} {f : α → Build β} {l : List α}
    (hf : ∀ a ∈ l, ∀ g b g', Yields (f a) g b g' → g' = step g a) {g g' : Graph} {bs : List β}
    (h : Yields (l.mapM f) g bs g') : g' = l.foldl step g := by
  induction l generalizing g bs with
  | nil =>
    rw [List.mapM_nil] at h
    exact (yields_pure_iff.mp h).2.symm
  | cons a l ih =>
    rw [List.mapM_cons] at h
    obtain ⟨b, g₁, hb, h⟩ := yields_bind_iff.mp h
    obtain ⟨bs', g₂, hbs, h⟩ := yields_bind_iff.mp h
    obtain ⟨-, rfl⟩ := yields_pure_iff.mp h
    have hg₁ : g₁ = step g a := hf a (List.mem_cons_self ..) _ _ _ hb
    rw [List.foldl_cons, ← hg₁]
    exact ih (fun x hx => hf x (List.mem_cons_of_mem _ hx)) hbs

theorem readCells_tells {p : Plan} {ps : Positions} {r : Row} {i : Nat} {g g' : Graph}
    {cells : List (Target × Document)} (hps : p.positions r.columns = .ok ps)
    (h : Yields (readCells p ps r i) g cells g') : g' = (p.turned r i).foldl withWarning g := by
  obtain ⟨hlength, hzip⟩ := List.forall₂_iff_zip.mp (positions_eq_ok hps).1
  let read := (p.columns.zip ps.columns).zipIdx.filter fun x => x.1.1.level == i
  have hfold : g' = read.foldl
      (fun g x => if r.turns x.1.1 then g.withWarning (x.1.1, x.2) else g) g :=
    mapM_eq_foldl (fun x hx _ _ _ hcell => by
      have hmem := List.mem_of_mem_filter hx
      exact readCell_tells (hzip (List.fst_mem_of_mem_zipIdx hmem)) hcell) h
  -- Without the positions beside them the columns are those of the plan.
  have hcolumns : p.columns.zipIdx =
      (p.columns.zip ps.columns).zipIdx.map fun x => (x.1.1, x.2) := by
    conv_lhs => rw [← List.map_fst_zip (Nat.le_of_eq hlength), List.zipIdx_map]
    rfl
  have hturned : p.turned r i =
      (read.filter fun x => r.turns x.1.1).map fun x => (x.1.1, x.2) := by
    rw [Plan.turned, hcolumns, List.filter_map, List.filter_filter]
    simp only [Function.comp_def, Bool.and_comm]
  rw [hfold, hturned, List.foldl_map]
  exact List.foldl_filter.symm

theorem create_tells {p : Plan} {ps : Positions} {r : Row} {index place : Nat} {level : Level}
    {id : Int64} {witnesses : List (Option Int64)} {g g' : Graph}
    (hps : p.positions r.columns = .ok ps)
    (h : Yields (create p ps r index level id witnesses) g place g') :
    SaysTheSame g' (told p r index level id g) := by
  rw [create] at h
  obtain ⟨cells, g₁, hread, h⟩ := yields_bind_iff.mp h
  have hg₁ := readCells_tells hps hread
  obtain ⟨_, _, hget, h⟩ := yields_bind_iff.mp h
  obtain ⟨rfl, rfl⟩ := yields_get_iff.mp hget
  obtain ⟨_, _, hmod, h⟩ := yields_bind_iff.mp h
  obtain ⟨_, _, hsay, h⟩ := yields_bind_iff.mp h
  obtain ⟨-, rfl⟩ := yields_pure_iff.mp h
  rw [← yields_say_iff.mp hsay, ← yields_modify_iff.mp hmod, hg₁]
  exact ⟨rfl, rfl⟩

/-- Making an element says so, and nothing else does. -/
theorem make_tells {p : Plan} {ps : Positions} {r : Row} {index place : Nat} {level : Level}
    {parent? : Option Nat} {chain : Chain} {id : Int64} {witnesses : List (Option Int64)}
    {g g' : Graph} (hps : p.positions r.columns = .ok ps)
    (h : Yields (make p ps r index level parent? chain id witnesses) g place g') :
    g'.nodes.length = g.nodes.length + 1 ∧ SaysTheSame g' (told p r index level id g) := by
  rw [make] at h
  obtain ⟨made, g₁, hcreate, h⟩ := yields_bind_iff.mp h
  have htold := create_tells hps hcreate
  have hlength : g₁.nodes.length = g.nodes.length + 1 := by
    obtain ⟨-, cells, -, warned, log, rfl⟩ := create_yields hps hcreate
    rw [List.length_append, List.length_singleton]
  obtain ⟨_, _, henter, h⟩ := yields_bind_iff.mp h
  obtain rfl := yields_modify_iff.mp henter
  obtain ⟨_, _, hlink, h⟩ := yields_bind_iff.mp h
  obtain ⟨-, rfl⟩ := yields_pure_iff.mp h
  rcases link_yields hlink with ⟨-, rfl⟩ | ⟨_, _, _, -, -, -, -, rfl⟩
  · exact ⟨hlength, htold⟩
  · exact ⟨(List.length_modify ..).trans hlength, htold⟩

theorem visitLevel_tells {p : Plan} {ps : Positions} {r : Row} {rowNumbers : List (Option Int64)}
    {index : Nat} {visited : List Visited} {level : Level} {v : Visited} {g g' : Graph}
    (hps : p.positions r.columns = .ok ps)
    (h : Yields (visitLevel p ps r rowNumbers index visited level) g v g') :
    g' = g ∨ ∃ place k id, v = some (place, k ++ [id]) ∧
      g'.nodes.length = g.nodes.length + 1 ∧ SaysTheSame g' (told p r index level id g) := by
  rw [visitLevel] at h
  split at h
  · rename_i parent? above id _ _
    obtain ⟨place, _, hvisit, h⟩ := yields_bind_iff.mp h
    obtain ⟨rfl, rfl⟩ := yields_pure_iff.mp h
    rw [visit] at hvisit
    obtain ⟨_, _, hget, hvisit⟩ := yields_bind_iff.mp hvisit
    obtain ⟨rfl, rfl⟩ := yields_get_iff.mp hget
    -- A known element is only compared; a new one is made, which is told.
    split at hvisit
    · obtain ⟨_, _, hcheck, hvisit⟩ := yields_bind_iff.mp hvisit
      obtain ⟨-, rfl⟩ := yields_ofResult_iff.mp hcheck
      exact .inl (yields_pure_iff.mp hvisit).2.symm
    · exact .inr ⟨place, above, id, rfl, make_tells hps hvisit⟩
  · split at h
    · exact absurd h not_yields_throw
    · exact .inl (yields_pure_iff.mp h).2.symm
  · exact .inl (yields_pure_iff.mp h).2.symm

/-! ### Warnings -/

/-- A graph has given the warnings of the columns that it has marked, in this order, and of none
twice. -/
structure WarnsOnce (p : Plan) (g : Graph) : Prop where
  nodup : g.warned.Nodup
  given : (g.messages .inefficient).map some = g.warned.reverse.map p.turnWarning?

theorem WarnsOnce.withWarning {p : Plan} {g : Graph} (h : WarnsOnce p g) {x : PlanColumn × Nat}
    (hx : p.columns[x.2]? = some x.1) : WarnsOnce p (g.withWarning x) := by
  rw [Graph.withWarning]
  by_cases hwarned : g.warned.contains x.2
  · rwa [if_pos hwarned]
  · rw [if_neg hwarned]
    refine ⟨?_, ?_⟩
    · rw [List.contains_iff_mem] at hwarned
      exact List.nodup_cons.mpr ⟨hwarned, h.nodup⟩
    · have hmessages : messages { g with
          warned := x.2 :: g.warned, log := g.log ++ [x.1.turnWarning] } .inefficient =
            g.messages .inefficient ++ [x.1.turnWarning] := messages_say g rfl
      rw [hmessages, List.map_append, h.given, List.reverse_cons, List.map_append,
        List.map_singleton, List.map_singleton, Plan.turnWarning?, hx, Option.map_some]

theorem WarnsOnce.foldl_withWarning {p : Plan} {g : Graph} (h : WarnsOnce p g)
    {xs : List (PlanColumn × Nat)} (hxs : ∀ x ∈ xs, p.columns[x.2]? = some x.1) :
    WarnsOnce p (xs.foldl Graph.withWarning g) :=
  List.foldlRecOn xs _ h fun _ hg x hx => hg.withWarning (hxs x hx)

theorem mem_warned_foldl_iff {xs : List (PlanColumn × Nat)} {g : Graph} {i : Nat} :
    i ∈ (xs.foldl withWarning g).warned ↔ i ∈ g.warned ∨ ∃ c, (c, i) ∈ xs := by
  induction xs generalizing g with
  | nil => simp
  | cons x xs ih =>
    have hx : i ∈ (g.withWarning x).warned ↔ i ∈ g.warned ∨ i = x.2 := by
      rw [withWarning]
      by_cases hwarned : g.warned.contains x.2
      · rw [if_pos hwarned]
        rw [List.contains_iff_mem] at hwarned
        exact ⟨.inl, fun h => h.elim id fun heq => heq ▸ hwarned⟩
      · rw [if_neg hwarned, List.mem_cons, or_comm]
    have hcons : (∃ c, (c, i) ∈ x :: xs) ↔ i = x.2 ∨ ∃ c, (c, i) ∈ xs := by
      simp only [List.mem_cons, exists_or]
      refine or_congr_left ⟨fun ⟨c, hc⟩ => congrArg Prod.snd hc, fun hi => ⟨x.1, ?_⟩⟩
      rw [hi]
    rw [List.foldl_cons, ih, hx, hcons, or_assoc]

theorem messages_allocated_foldl (xs : List (PlanColumn × Nat)) (g : Graph) :
    (xs.foldl withWarning g).messages .allocated = g.messages .allocated := by
  refine List.foldlRecOn xs withWarning
    (motive := fun g' => g'.messages .allocated = g.messages .allocated) rfl ?_
  intro g' hg' x _
  rw [withWarning]
  by_cases hwarned : g'.warned.contains x.2
  · rwa [if_pos hwarned]
  · rw [if_neg hwarned, ← hg']
    exact messages_say_of_ne g' nofun

theorem SaysTheSame.messages {g g' : Graph} (h : SaysTheSame g g') (code : LogCode) :
    g.messages code = g'.messages code := by
  rw [Graph.messages, Graph.messages, h.2]

theorem WarnsOnce.told {p : Plan} {g : Graph} (h : WarnsOnce p g) (r : Row) (index : Nat)
    (level : Level) (id : Int64) : WarnsOnce p (told p r index level id g) := by
  have hturned : ∀ x ∈ p.turned r index, p.columns[x.2]? = some x.1 :=
    fun x hx => (Plan.mem_turned_iff.mp hx).1
  have hwarns := h.foldl_withWarning hturned
  refine ⟨hwarns.nodup, ?_⟩
  have hmessages : (Graph.told p r index level id g).messages .inefficient =
      ((p.turned r index).foldl Graph.withWarning g).messages .inefficient :=
    messages_say_of_ne _ (m := level.allocation id) nofun
  rw [hmessages]
  exact hwarns.given

theorem WarnsOnce.congr {p : Plan} {g g' : Graph} (h : WarnsOnce p g) (htold : SaysTheSame g' g) :
    WarnsOnce p g' := by
  refine ⟨htold.1 ▸ h.nodup, ?_⟩
  rw [htold.messages, htold.1]
  exact h.given

end Graph

/-! ### What rows bring -/

namespace Plan

variable {p : Plan} {r : Row}

/-- The levels and chains of a row, at the levels before a place. -/
def keysBefore (p : Plan) (r : Row) (n : Nat) : List (Nat × Chain) :=
  (List.range n).filterMap fun i => (p.chain? r i).map fun k => (i, k)

/-- The levels and chains of a row. -/
def keys (p : Plan) (r : Row) : List (Nat × Chain) :=
  p.keysBefore r p.levels.length

theorem keysBefore_succ (p : Plan) (r : Row) (n : Nat) :
    p.keysBefore r (n + 1) =
      p.keysBefore r n ++ ((p.chain? r n).map fun k => (n, k)).toList := by
  rw [keysBefore, List.range_succ, List.filterMap_append, keysBefore]
  cases h : p.chain? r n with
  | none => simp [h]
  | some k => simp [h]

theorem mem_keys_of_chain? {i : Nat} {k : Chain} (h : p.chain? r i = some k) :
    (i, k) ∈ p.keys r := by
  have hlt : i < p.levels.length := by
    by_contra hle
    rw [chain?_eq_none_of_le r (Nat.le_of_not_lt hle)] at h
    cases h
  rw [keys, keysBefore, List.mem_filterMap]
  exact ⟨i, List.mem_range.mpr hlt, by rw [h, Option.map_some]⟩

end Plan

namespace Graph

open Build

/-- A level that has got one more element has got the one that the row makes there. -/
theorem Settles.exists_made {p : Plan} {r : Row} {index : Nat} {level : Level} {g g' : Graph}
    {es es' : List Element} {v : Visited} (h : Settles p r index level g es g' es' v)
    (hlength : es'.length = es.length + 1) :
    ∃ k id cells, p.chain? r index = some (k ++ [id]) ∧ p.cells? r index = some cells ∧
      es' = es ++ [⟨index, k ++ [id], cells, p.witnessNumbers r level⟩] ∧
      ∀ e ∈ es, e.key ≠ (index, k ++ [id]) := by
  obtain ⟨more, rfl⟩ := h.grows
  rw [List.length_append] at hlength
  obtain ⟨e, rfl⟩ := List.length_eq_one_iff.mp (Nat.add_left_cancel hlength)
  -- The other levels have no element more.
  have hlevel : e.level = index := by
    by_contra hne
    have hothers := h.others e.level hne
    rw [elementsAt_concat, if_pos rfl] at hothers
    exact absurd (List.append_right_eq_self.mp hothers) (by simp)
  have hconcat : elementsAt (es ++ [e]) index = elementsAt es index ++ [e] := by
    rw [elementsAt_concat, if_pos hlevel]
  have henters := h.enters
  generalize elementsAt (es ++ [e]) index = new at hconcat henters
  cases henters with
  | absent | known => exact absurd (List.append_right_eq_self.mp hconcat.symm) (by simp)
  | @made k id cells hchain hnew hcells _ =>
    obtain rfl := (List.cons.inj (List.append_cancel_left hconcat)).1
    refine ⟨k, id, cells, hchain, hcells, rfl, fun a ha hkey => ?_⟩
    obtain ⟨halevel, hachain⟩ := Prod.mk.inj hkey
    exact hnew a (mem_elementsAt.mpr ⟨ha, halevel⟩) hachain

/-- What has been said accords with the elements. `made` are the elements, each with the row that
made it; `seen` are the rows so far, and `keys` what they have brought. -/
structure Tells (p : Plan) (seen : List Row) (keys : List (Nat × Chain))
    (made : List (Element × Row)) (g : Graph) : Prop where
  /-- The graph keeps the elements. -/
  represents : g.Represents p (made.map Prod.fst)
  /-- They stand in the order in which they first appeared. -/
  keys_eq : made.map (fun x => x.1.key) = keys.eraseDups
  /-- Each is made by the first row with its chain. -/
  first : ∀ x ∈ made, p.firstRow? seen x.1.level x.1.chain = some x.2
  /-- It has the cells of this row. -/
  cells : ∀ x ∈ made, p.cells? x.2 x.1.level = some x.1.cells
  /-- There is a message for each. -/
  allocated : (g.messages .allocated).map some = made.map fun x => p.allocation? x.1
  /-- Warnings are given once. -/
  warnsOnce : WarnsOnce p g
  /-- There is a warning of each column in which a cell was turned. -/
  mem_warned_iff : ∀ i, i ∈ g.warned ↔
    ∃ c, p.columns[i]? = some c ∧ ∃ x ∈ made, x.1.level = c.level ∧ x.2.turns c

theorem tells_nil (p : Plan) : Tells p [] [] [] {} where
  represents := represents_nil p
  keys_eq := rfl
  first _ hx := absurd hx List.not_mem_nil
  cells _ hx := absurd hx List.not_mem_nil
  allocated := rfl
  warnsOnce := ⟨List.nodup_nil, rfl⟩
  mem_warned_iff _ := iff_of_false List.not_mem_nil fun ⟨_, _, _, hx, _⟩ => List.not_mem_nil hx

section

variable {p : Plan} {r : Row} {read seen : List Row} {keys : List (Nat × Chain)}
  {made : List (Element × Row)} {g g' : Graph} {index : Nat} {level : Level}

theorem Tells.mem_keys_iff (h : Tells p seen keys made g) {key : Nat × Chain} :
    key ∈ keys ↔ ∃ x ∈ made, x.1.key = key := by
  rw [← List.mem_eraseDups, ← h.keys_eq, List.mem_map]

/-- A row that comes makes no other row the first. -/
theorem Tells.next (h : Tells p seen keys made g) (r : Row)
    (hg' : g'.Represents p (made.map Prod.fst)) (htold : SaysTheSame g' g) :
    Tells p (seen ++ [r]) keys made g' where
  represents := hg'
  keys_eq := h.keys_eq
  first x hx := Plan.firstRow?_concat (h.first x hx) r
  cells := h.cells
  allocated := htold.messages .allocated ▸ h.allocated
  warnsOnce := h.warnsOnce.congr htold
  mem_warned_iff := htold.1 ▸ h.mem_warned_iff

/-- What is known already brings nothing new. -/
theorem Tells.known (h : Tells p seen keys made g) {key : Nat × Chain} (hkey : key ∈ keys) :
    Tells p seen (keys ++ [key]) made g :=
  { h with keys_eq := by rw [eraseDups_concat, if_pos hkey, h.keys_eq] }

/-- **An element that is made is told.** -/
theorem Tells.concat {k : Chain} {id : Int64} {cells : List (Target × Document)}
    {witnesses : List (Option Int64)} (h : Tells p (read ++ [r]) keys made g)
    (hlevel : p.levels[index]? = some level) (hchain : p.chain? r index = some (k ++ [id]))
    (hcells : p.cells? r index = some cells) (hnew : (index, k ++ [id]) ∉ keys)
    (hread : ∀ r' ∈ read, p.chain? r' index ≠ some (k ++ [id]))
    (hg' : g'.Represents p (made.map Prod.fst ++ [⟨index, k ++ [id], cells, witnesses⟩]))
    (htold : SaysTheSame g' (told p r index level id g)) :
    Tells p (read ++ [r]) (keys ++ [(index, k ++ [id])])
      (made ++ [(⟨index, k ++ [id], cells, witnesses⟩, r)]) g' where
  represents := by
    rw [List.map_append]
    exact hg'
  keys_eq := by
    rw [List.map_append, h.keys_eq, eraseDups_concat, if_neg hnew]
    rfl
  first := by
    rw [List.forall_mem_append, List.forall_mem_singleton]
    exact ⟨h.first, Plan.firstRow?_concat_self hchain hread⟩
  cells := by
    rw [List.forall_mem_append, List.forall_mem_singleton]
    exact ⟨h.cells, hcells⟩
  allocated := by
    have hallocation : p.allocation? ⟨index, k ++ [id], cells, witnesses⟩ =
        some (level.allocation id) := by
      rw [Plan.allocation?, hlevel, List.getLast?_concat]
      rfl
    have hmessages : (told p r index level id g).messages .allocated =
        g.messages .allocated ++ [level.allocation id] := by
      -- The warnings of the row come before the message, and are of another kind.
      have hturned := messages_allocated_foldl (p.turned r index) g
      rw [← hturned]
      exact messages_say _ rfl
    rw [htold.messages, hmessages, List.map_append, List.map_append, h.allocated,
      List.map_singleton, List.map_singleton, hallocation]
  warnsOnce := (h.warnsOnce.told r index level id).congr htold
  mem_warned_iff i := by
    have hwarned : g'.warned = ((p.turned r index).foldl withWarning g).warned := htold.1
    simp only [hwarned, mem_warned_foldl_iff, h.mem_warned_iff, Plan.mem_turned_iff,
      List.mem_append, List.mem_singleton, or_and_right, exists_or, and_or_left, exists_eq_left]
    refine or_congr_right (exists_congr fun c => and_congr_right fun _ => ?_)
    rw [eq_comm]

/-! ### Reading rows -/

/-- **A level is told.** -/
theorem Tells.visitLevel (hp : p.WellFormed) {ps : Positions} {visited : List Visited}
    {v : Visited} (hps : p.positions r.columns = .ok ps) (hlevel : p.levels[index]? = some level)
    (h : Tells p (read ++ [r]) (read.flatMap p.keys ++ p.keysBefore r index) made g)
    (hvisits : Visits (made.map Prod.fst) visited (p.chains r index))
    (hrun : Yields (visitLevel p ps r (ps.rowNumbers r) index visited level) g v g') :
    ∃ made', Tells p (read ++ [r]) (read.flatMap p.keys ++ p.keysBefore r (index + 1)) made' g' ∧
      Visits (made'.map Prod.fst) (visited ++ [v]) (p.chains r (index + 1)) := by
  obtain ⟨es', hsettles⟩ := visitLevel_yields hp hps h.represents hlevel hvisits hrun
  have hvisits' := hsettles.visits hlevel hvisits
  rw [Plan.keysBefore_succ, ← List.append_assoc, hsettles.chain?_eq]
  rcases visitLevel_tells hps hrun with rfl | ⟨place, k, id, rfl, hmade, htold⟩
  · -- No element is made, so what is visited was there before.
    have hes : made.map Prod.fst = es' := hsettles.grows.eq_of_length
      (h.represents.length_nodes.symm.trans hsettles.represents.length_nodes)
    refine ⟨made, ?_, hes ▸ hvisits'⟩
    cases v with
    | none => rwa [Option.map_none, Option.map_none, Option.toList_none, List.append_nil]
    | some v =>
      obtain ⟨e, he, rfl, hchain⟩ := hsettles.element v.1 v.2 rfl
      obtain ⟨x, hx, rfl⟩ := List.mem_map.mp (hes ▸ List.mem_of_getElem? he)
      exact h.known (h.mem_keys_iff.mpr ⟨x, hx, Prod.ext rfl hchain⟩)
  · rw [h.represents.length_nodes, hsettles.represents.length_nodes] at hmade
    obtain ⟨k', id', cells, hchain, hcells, rfl, hnew⟩ := hsettles.exists_made hmade
    -- The element that is made is the one that is visited.
    have hsame : k' ++ [id'] = k ++ [id] :=
      Option.some.inj (hchain.symm.trans hsettles.chain?_eq)
    obtain ⟨rfl, hid⟩ := List.append_inj' hsame rfl
    obtain rfl := (List.cons.inj hid).1
    have hkeys : (index, k' ++ [id']) ∉ read.flatMap p.keys ++ p.keysBefore r index := by
      intro hkey
      obtain ⟨x, hx, hxkey⟩ := h.mem_keys_iff.mp hkey
      exact hnew x.1 (List.mem_map_of_mem hx) hxkey
    have hread : ∀ r' ∈ read, p.chain? r' index ≠ some (k' ++ [id']) := fun r' hr' hr'chain =>
      hkeys (List.mem_append_left _
        (List.mem_flatMap.mpr ⟨r', hr', Plan.mem_keys_of_chain? hr'chain⟩))
    refine ⟨_, h.concat hlevel hchain hcells hkeys hread hsettles.represents htold, ?_⟩
    rw [List.map_append]
    exact hvisits'

theorem Tells.pushLevels (hp : p.WellFormed) {ps : Positions} {visited : List Visited}
    {levels : List Level} {u : Unit} (hps : p.positions r.columns = .ok ps)
    (hlevels : p.levels.drop index = levels) (hindex : index ≤ p.levels.length)
    (h : Tells p (read ++ [r]) (read.flatMap p.keys ++ p.keysBefore r index) made g)
    (hvisits : Visits (made.map Prod.fst) visited (p.chains r index))
    (hrun : Yields (pushLevels p ps r (ps.rowNumbers r) index visited levels) g u g') :
    ∃ made', Tells p (read ++ [r]) ((read ++ [r]).flatMap p.keys) made' g' := by
  -- After each level the keys of the row up to that level have been told.
  induction levels generalizing index g made visited with
  | nil =>
    obtain ⟨-, rfl⟩ := yields_pure_iff.mp hrun
    obtain rfl : index = p.levels.length :=
      Nat.le_antisymm hindex (List.drop_eq_nil_iff.mp hlevels)
    rw [List.flatMap_append, List.flatMap_singleton]
    exact ⟨made, h⟩
  | cons level rest ih =>
    obtain ⟨hlevel, hrest⟩ := levels_drop_eq_cons hlevels
    rw [pushLevels_cons] at hrun
    obtain ⟨v, g₁, hvisit, hrun⟩ := yields_bind_iff.mp hrun
    obtain ⟨made₁, h₁, hvisits₁⟩ := h.visitLevel hp hps hlevel hvisits hvisit
    exact ih hrest (List.getElem?_eq_some_iff.mp hlevel).1 h₁ hvisits₁ hrun

/-- **A row is told.** -/
theorem Tells.push (hp : p.WellFormed) {u : Unit}
    (hknown : ∀ ps, g.positions? = some ps → p.positions r.columns = .ok ps)
    (h : Tells p read (read.flatMap p.keys) made g) (hrun : Yields (push p r) g u g') :
    ∃ made', Tells p (read ++ [r]) ((read ++ [r]).flatMap p.keys) made' g' := by
  rw [Graph.push, yields_bind_iff] at hrun
  obtain ⟨ps, _, hresolve, hrun⟩ := hrun
  -- Keeping the positions makes no element and says nothing.
  obtain ⟨rfl, hps, hg⟩ := h.represents.resolvePositions hknown hresolve
  have hread := h.next r hg ⟨rfl, rfl⟩
  rw [← List.append_nil (read.flatMap p.keys)] at hread
  exact hread.pushLevels hp hps List.drop_zero (Nat.zero_le _) (visits_nil _) hrun

/-- **Rows are told**, if they have the header from which the positions of the columns come. -/
theorem Tells.forM_push (hp : p.WellFormed) {header : List String} {rows : List Row} {u : Unit}
    (hheader : ∀ r ∈ rows, r.columns = header)
    (hknown : ∀ ps, g.positions? = some ps → p.positions header = .ok ps)
    (h : Tells p read (read.flatMap p.keys) made g)
    (hrun : Yields (rows.forM (Graph.push p)) g u g') :
    ∃ made', Tells p (read ++ rows) ((read ++ rows).flatMap p.keys) made' g' := by
  induction rows generalizing read g made with
  | nil =>
    obtain ⟨-, rfl⟩ := yields_pure_iff.mp hrun
    rw [List.append_nil]
    exact ⟨made, h⟩
  | cons r rows ih =>
    obtain ⟨_, g₁, hpush, hrun⟩ := yields_bind_iff.mp hrun
    have hr := hheader r (List.mem_cons_self ..)
    have hknown₁ := hr ▸ positions_of_push hp h.represents (hr ▸ hknown) hpush
    obtain ⟨made₁, h₁⟩ := h.push hp (hr ▸ hknown) hpush
    have hrows := ih (fun r' hr' => hheader r' (List.mem_cons_of_mem r hr')) hknown₁ h₁ hrun
    rwa [List.append_assoc] at hrows

end

/-- **The messages count the graph.** After rows that are all read, the elements stand in the order
in which their chains first appeared, each is found from one root or slot, and there is one message
for each. There is one warning at most of a column, and there is one just if an element was made by
a row that has a turned cell there. -/
theorem messages_of_forM_push {p : Plan} (hp : p.WellFormed) {rows : List Row} {g : Graph}
    (h : Yields (rows.forM (push p)) {} () g) :
    ∃ made : List (Element × Row),
      g.Represents p (made.map Prod.fst) ∧
      (∀ place < made.length, g.Returned place) ∧
      g.linked.Perm (List.range made.length) ∧
      made.map (fun x => x.1.key) = ((Row.aligned rows).flatMap p.keys).eraseDups ∧
      (∀ x ∈ made, p.firstRow? (Row.aligned rows) x.1.level x.1.chain = some x.2 ∧
        p.cells? x.2 x.1.level = some x.1.cells) ∧
      (g.messages .allocated).map some = made.map (fun x => p.allocation? x.1) ∧
      ∃ columns : List Nat, columns.Nodup ∧
        (g.messages .inefficient).map some = columns.map p.turnWarning? ∧
        ∀ i, i ∈ columns ↔
          ∃ c, p.columns[i]? = some c ∧ ∃ x ∈ made, x.1.level = c.level ∧ x.2.turns c := by
  obtain ⟨made, htells⟩ := (tells_nil p).forM_push hp
    (fun r hr => Row.columns_of_mem_aligned hr) (fun ps hps => absurd hps (by simp))
    (forM_push_aligned hp h)
  rw [List.nil_append] at htells
  -- Only a row that is refused can crowd an element out of the documents.
  have hreturned : ∀ place < (made.map Prod.fst).length, g.Returned place := by
    obtain ⟨rfl, hnone⟩ := after_of_forM_push h
    have hall := (forall_returned_iff hp rows).mpr hnone
    rwa [htells.represents.nodes, List.length_map] at hall
  have hlinked := htells.represents.linked_perm_range hp hreturned
  rw [List.length_map] at hreturned hlinked
  refine ⟨made, htells.represents, hreturned, hlinked, htells.keys_eq,
    fun x hx => ⟨htells.first x hx, htells.cells x hx⟩, htells.allocated, g.warned.reverse,
    List.nodup_reverse.mpr htells.warnsOnce.nodup, htells.warnsOnce.given, fun i => ?_⟩
  rw [List.mem_reverse]
  exact htells.mem_warned_iff i

/-- Students, and the titles of their classes as bytes. -/
def encodedClassPlan : Plan :=
  ((((Plan.root "t0.##rowid" "students").addRowId "t1.##rowid").2.addLevel
      ⟨some 0, 1, false, [.field "classes"], "classes", "classes", []⟩).addColumn
    ⟨"t0.name", 0, [.field "name"], .text⟩).addColumn ⟨"t1.title", 1, [], .bytes⟩

theorem built_encodedClassPlan : encodedClassPlan.Built :=
  .addColumn (.addColumn (.addLevel _ _ _ _ (.addRowId _ (.root _ _)) (by decide) (by decide))
    (by decide)) (by decide)

/-- Three students and three classes are made; the titles of all of these are turned, and there is
one warning. -/
theorem messages_of_forM_push_classes :
    ∃ g, Yields (classRows.forM (push encodedClassPlan)) {} () g ∧
      g.linked.Perm (List.range 6) ∧ (g.messages .allocated).length = 6 ∧
      g.messages .inefficient = [PlanColumn.turnWarning ⟨"t1.title", 1, [], .bytes⟩] := by
  have h : Yields (classRows.forM (push encodedClassPlan)) {} ()
      ((classRows.forM (push encodedClassPlan)).run.run {}).2 := Prod.ext rfl rfl
  obtain ⟨made, hmade, -, hlinked, -, -, hallocated, -⟩ :=
    messages_of_forM_push built_encodedClassPlan.wellFormed h
  have hlength : made.length = 6 := by
    have hnodes := hmade.length_nodes
    rw [List.length_map] at hnodes
    exact hnodes.symm
  have hmessages := congrArg List.length hallocated
  rw [List.length_map, List.length_map, hlength] at hmessages
  exact ⟨_, h, hlength ▸ hlinked, hmessages, rfl⟩

end Graph

end NestedQuery
