import Mathlib.Data.List.Induction
import Mathlib.Data.List.Nodup
import NestedQuery.Proofs.Graph.Push

/-!
# The documents are the grouping of the rows

`Plan.element` groups rows without any state: it looks up the first row with a chain, and the row
numbers that extend the chain at the levels below. Reading the rows one after another builds just
these documents.

* `tracks_of_forM_push`: after the rows, the elements of every level are those of the grouping.
* `finish_eq_grouping`: the documents are the grouping, no chain is lost, none appears twice, and
  each element has the cells of the first row that carries its chain.
-/

namespace NestedQuery

/-! ### First appearances -/

/-- A value that comes last matters only if it is new. -/
theorem eraseDups_concat {α : Type} [BEq α] [LawfulBEq α] (l : List α) (a : α) [Decidable (a ∈ l)] :
    (l ++ [a]).eraseDups = if a ∈ l then l.eraseDups else l.eraseDups ++ [a] := by
  rw [List.eraseDups_append]
  by_cases ha : a ∈ l
  · rw [if_pos ha]
    have hnone : [a].removeAll l = [] := by simp [List.removeAll, ha]
    rw [hnone, List.eraseDups_nil, List.append_nil]
  · rw [if_neg ha]
    have hone : [a].removeAll l = [a] := by simp [List.removeAll, ha]
    rw [hone, List.eraseDups_cons, List.filter_nil, List.eraseDups_nil]

theorem nodup_eraseDups {α : Type} [BEq α] [LawfulBEq α] [DecidableEq α] (l : List α) :
    l.eraseDups.Nodup := by
  induction l using List.reverseRecOn with
  | nil => exact List.nodup_nil
  | append_singleton l a ih =>
    rw [eraseDups_concat]
    by_cases ha : a ∈ l
    · rwa [if_pos ha]
    · rw [if_neg ha]
      rw [← List.concat_eq_append]
      exact ih.concat (by rwa [List.mem_eraseDups])

/-! ### The grouping -/

/-- The document of a level below an element: a list, or one document or null. -/
def Level.document (level : Level) (documents : List Document) : Document :=
  if level.single then documents.head?.getD .null else .array documents

namespace Plan

/-- The row number by which a row extends a chain at a level, if it does. -/
def idBelow? (p : Plan) (r : Row) (i : Nat) (k : Chain) : Option Int64 :=
  (p.chain? r i).bind fun c => if c.dropLast = k then c.getLast? else none

/-- The row numbers that extend a chain at a level, in the order of their first appearance. -/
def idsBelow (p : Plan) (rows : List Row) (i : Nat) (k : Chain) : List Int64 :=
  (rows.filterMap fun r => p.idBelow? r i k).eraseDups

/-- The first row with a chain at a level. -/
def firstRow? (p : Plan) (rows : List Row) (i : Nat) (k : Chain) : Option Row :=
  rows.find? fun r => p.chain? r i == some k

/-- The cells of the element with a chain: those of the first row that has the chain. -/
def cellsOf (p : Plan) (rows : List Row) (i : Nat) (k : Chain) : List (Target × Document) :=
  ((p.firstRow? rows i k).bind fun r => p.cells? r i).getD []

/-- The document of the element with a chain at a level: its cells, and at the target of each
level below it the documents of the elements whose chains extend its own. -/
def element {p : Plan} (hp : p.WellFormed) (rows : List Row) (i : Nat) (k : Chain) : Document :=
  let own := (p.cellsOf rows i k).foldl (fun shape (target, d) => shape.insert d target)
    Shape.empty
  let below := (p.childLevels i).attach.filterMap fun ⟨j, _⟩ =>
    (p.levels[j]?).map fun level =>
      (level.target, level.document
        ((p.idsBelow rows j k).map fun id => element hp rows j (k ++ [id])))
  (below.foldl (fun shape (target, d) => shape.insert d target) own).toDocument
termination_by p.levels.length - i
decreasing_by
  have hlt := hp.lt_of_mem_childLevels ‹_›
  omega

theorem element_eq {p : Plan} (hp : p.WellFormed) (rows : List Row) (i : Nat) (k : Chain) :
    element hp rows i k =
      (((p.childLevels i).filterMap fun j => (p.levels[j]?).map fun level =>
          (level.target, level.document
            ((p.idsBelow rows j k).map fun id => element hp rows j (k ++ [id])))).foldl
        (fun shape (target, d) => shape.insert d target)
        ((p.cellsOf rows i k).foldl (fun shape (target, d) => shape.insert d target)
          Shape.empty)).toDocument := by
  rw [element]
  congr 2
  exact (List.filterMap_subtype fun _ _ => rfl).trans (congrArg _ List.unattach_attach)

theorem idBelow?_eq_some_iff {p : Plan} {r : Row} {i : Nat} {k : Chain} {id : Int64} :
    p.idBelow? r i k = some id ↔ p.chain? r i = some (k ++ [id]) := by
  rw [idBelow?, Option.bind_eq_some_iff]
  constructor
  · rintro ⟨c, hc, h⟩
    by_cases hk : c.dropLast = k
    · rw [if_pos hk] at h
      rw [hc, ← hk, List.dropLast_append_getLast? id h]
    · rw [if_neg hk] at h
      exact absurd h (by simp)
  · intro h
    refine ⟨_, h, ?_⟩
    rw [List.dropLast_concat, if_pos rfl, List.getLast?_concat]

theorem mem_idsBelow_iff {p : Plan} {rows : List Row} {i : Nat} {k : Chain} {id : Int64} :
    id ∈ p.idsBelow rows i k ↔ ∃ r ∈ rows, p.chain? r i = some (k ++ [id]) := by
  rw [idsBelow, List.mem_eraseDups, List.mem_filterMap]
  simp only [idBelow?_eq_some_iff]

/-- A row that does not extend a chain by a new row number changes nothing below it. -/
theorem idsBelow_concat_of_mem {p : Plan} {rows : List Row} {r : Row} {i : Nat} {k : Chain}
    (h : ∀ id, p.chain? r i = some (k ++ [id]) → id ∈ p.idsBelow rows i k) :
    p.idsBelow (rows ++ [r]) i k = p.idsBelow rows i k := by
  rw [idsBelow, List.filterMap_append]
  cases hid : p.idBelow? r i k with
  | none =>
    have hlast : [r].filterMap (fun r => p.idBelow? r i k) = [] := by simp [hid]
    rw [hlast, List.append_nil, idsBelow]
  | some id =>
    have hlast : [r].filterMap (fun r => p.idBelow? r i k) = [id] := by simp [hid]
    have hmem := h id (idBelow?_eq_some_iff.mp hid)
    rw [idsBelow, List.mem_eraseDups] at hmem
    rw [hlast, eraseDups_concat, if_pos hmem, idsBelow]

/-- A row that extends a chain by a new row number adds it at the end. -/
theorem idsBelow_concat_of_not_mem {p : Plan} {rows : List Row} {r : Row} {i : Nat} {k : Chain}
    {id : Int64} (hr : p.chain? r i = some (k ++ [id])) (hid : id ∉ p.idsBelow rows i k) :
    p.idsBelow (rows ++ [r]) i k = p.idsBelow rows i k ++ [id] := by
  have hlast : [r].filterMap (fun r => p.idBelow? r i k) = [id] := by
    simp [idBelow?_eq_some_iff.mpr hr]
  rw [idsBelow, List.mem_eraseDups] at hid
  rw [idsBelow, List.filterMap_append, hlast, eraseDups_concat, if_neg hid, idsBelow]

/-- The first row with a chain stays the first when rows follow. -/
theorem firstRow?_concat {p : Plan} {rows : List Row} {r : Row} {i : Nat} {k : Chain}
    (h : p.firstRow? rows i k = some r) (r' : Row) :
    p.firstRow? (rows ++ [r']) i k = some r := by
  rw [firstRow?] at h
  rw [firstRow?, List.find?_append, h, Option.some_or]

theorem firstRow?_concat_self {p : Plan} {rows : List Row} {r : Row} {i : Nat} {k : Chain}
    (hr : p.chain? r i = some k) (hrows : ∀ r' ∈ rows, p.chain? r' i ≠ some k) :
    p.firstRow? (rows ++ [r]) i k = some r := by
  have hnone : rows.find? (fun r => p.chain? r i == some k) = none := by
    rw [List.find?_eq_none]
    intro r' hr'
    rw [beq_iff_eq]
    exact hrows r' hr'
  have hlast : [r].find? (fun r => p.chain? r i == some k) = some r := by simp [hr]
  rw [firstRow?, List.find?_append, hnone, Option.none_or, hlast]

/-- The first row with a chain stands before all others that have it. -/
theorem firstRow?_eq_some {p : Plan} {rows : List Row} {r : Row} {i : Nat} {k : Chain}
    (h : p.firstRow? rows i k = some r) :
    p.chain? r i = some k ∧ ∃ before after, rows = before ++ r :: after ∧
      ∀ r' ∈ before, p.chain? r' i ≠ some k := by
  obtain ⟨hr, before, after, hrows, hbefore⟩ := List.find?_eq_some_iff_append.mp h
  refine ⟨beq_iff_eq.mp hr, before, after, hrows, fun r' hr' heq => ?_⟩
  have hnot := hbefore r' hr'
  rw [heq, beq_self_eq_true] at hnot
  exact absurd hnot (by simp)

/-! ### The invariant -/

/-- The elements of a level are those of the grouping of the rows that have been read. -/
structure Tracks (p : Plan) (rows : List Row) (i : Nat) (es : List Element) : Prop where
  /-- The elements below a chain extend it by its row numbers. -/
  below : ∀ k, (es.filter fun e => e.chain.dropLast == k).map Element.chain
    = (p.idsBelow rows i k).map fun id => k ++ [id]
  /-- Each element has the cells of the first row with its chain. -/
  first : ∀ e ∈ es, ∃ r, p.firstRow? rows i e.chain = some r ∧ p.cells? r i = some e.cells
  /-- A place for one element has at most one. -/
  single : ∀ level, p.levels[i]? = some level → level.parent?.isSome → level.single →
    ∀ k, (p.idsBelow rows i k).length ≤ 1

theorem Tracks.mem_idsBelow {p : Plan} {rows : List Row} {i : Nat} {es : List Element}
    (h : p.Tracks rows i es) {k : Chain} {id : Int64} :
    id ∈ p.idsBelow rows i k ↔ ∃ e ∈ es, e.chain = k ++ [id] := by
  have hmem : k ++ [id] ∈ (p.idsBelow rows i k).map (fun id => k ++ [id]) ↔
      id ∈ p.idsBelow rows i k := by
    simp
  rw [← hmem, ← h.below k, List.mem_map]
  constructor
  · rintro ⟨e, he, heq⟩
    exact ⟨e, List.mem_of_mem_filter he, heq⟩
  · rintro ⟨e, he, heq⟩
    refine ⟨e, List.mem_filter.mpr ⟨he, ?_⟩, heq⟩
    rw [heq, List.dropLast_concat, beq_self_eq_true]

theorem tracks_nil (p : Plan) (i : Nat) : p.Tracks [] i [] where
  below _ := rfl
  first _ he := absurd he List.not_mem_nil
  single _ _ _ _ _ := Nat.zero_le 1

/-- A row that brings no new chain keeps the invariant. -/
theorem Tracks.concat_of_mem {p : Plan} {rows : List Row} {i : Nat} {es : List Element}
    (h : p.Tracks rows i es) {r : Row}
    (hr : ∀ k id, p.chain? r i = some (k ++ [id]) → id ∈ p.idsBelow rows i k) :
    p.Tracks (rows ++ [r]) i es where
  below k := by rw [idsBelow_concat_of_mem (hr k), h.below k]
  first e he := by
    obtain ⟨r', hfirst, hcells⟩ := h.first e he
    exact ⟨r', firstRow?_concat hfirst r, hcells⟩
  single level hlevel hparent hsingle k := by
    rw [idsBelow_concat_of_mem (hr k)]
    exact h.single level hlevel hparent hsingle k

/-- A row that brings a new chain keeps the invariant with one more element. -/
theorem Tracks.concat_made {p : Plan} {rows : List Row} {i : Nat} {level : Level}
    {es : List Element} (h : p.Tracks rows i es) (hlevel : p.levels[i]? = some level) {r : Row}
    {parent : Chain} {id : Int64} {e : Element} (he : e.chain = parent ++ [id])
    (hr : p.chain? r i = some (parent ++ [id])) (hnew : ∀ a ∈ es, a.chain ≠ parent ++ [id])
    (hcells : p.cells? r i = some e.cells)
    (hfree : level.parent?.isSome → level.single → ∀ a ∈ es, a.chain.dropLast ≠ parent) :
    p.Tracks (rows ++ [r]) i (es ++ [e]) := by
  have hid : id ∉ p.idsBelow rows i parent := by
    rw [h.mem_idsBelow]
    exact fun ⟨a, ha, heq⟩ => hnew a ha heq
  have hother : ∀ k, k ≠ parent → p.idsBelow (rows ++ [r]) i k = p.idsBelow rows i k := by
    refine fun k hk => idsBelow_concat_of_mem fun id' hid' => absurd ?_ hk
    rw [hr, Option.some.injEq] at hid'
    exact (List.append_inj_left' hid' rfl).symm
  -- One row number is new below `parent`, and below other chains nothing changes.
  refine ⟨fun k => ?_, fun a ha => ?_, fun level' hlevel' hparent hsingle k => ?_⟩
  · rw [List.filter_append, List.map_append, h.below k]
    by_cases hk : k = parent
    · have hlast : [e].filter (fun e => e.chain.dropLast == k) = [e] := by simp [he, hk]
      rw [hlast, hk, idsBelow_concat_of_not_mem hr hid, List.map_append]
      simp [he]
    · have hlast : [e].filter (fun e => e.chain.dropLast == k) = [] := by
        simp [he, Ne.symm hk]
      rw [hlast, hother k hk, List.map_nil, List.append_nil]
  · rcases List.mem_append.mp ha with hold | hlast
    · obtain ⟨r', hfirst, hcells'⟩ := h.first a hold
      exact ⟨r', firstRow?_concat hfirst r, hcells'⟩
    · rw [List.mem_singleton.mp hlast, he]
      refine ⟨r, firstRow?_concat_self hr fun r' hr' heq => hid ?_, hcells⟩
      exact mem_idsBelow_iff.mpr ⟨r', hr', heq⟩
  · by_cases hk : k = parent
    · obtain rfl := Option.some.inj (hlevel.symm.trans hlevel')
      have hempty : p.idsBelow rows i parent = [] := by
        rw [List.eq_nil_iff_forall_not_mem]
        intro id' hid'
        obtain ⟨a, ha, heq⟩ := h.mem_idsBelow.mp hid'
        exact hfree hparent hsingle a ha (by rw [heq, List.dropLast_concat])
      rw [hk, idsBelow_concat_of_not_mem hr hid, hempty]
      rfl
    · rw [hother k hk]
      exact h.single level' hlevel' hparent hsingle k

/-- **What a row does keeps the invariant.** -/
theorem Tracks.enters {p : Plan} {rows : List Row} {r : Row} {i : Nat} {level : Level}
    {es es' : List Element} (h : p.Tracks rows i es) (hlevel : p.levels[i]? = some level)
    (henters : p.Enters r i level es es') : p.Tracks (rows ++ [r]) i es' := by
  cases henters with
  | absent hnone =>
    refine h.concat_of_mem fun k id hsome => ?_
    rw [hnone] at hsome
    exact absurd hsome (by simp)
  | known he hchain _ =>
    refine h.concat_of_mem fun k id hsome => h.mem_idsBelow.mpr ⟨_, he, ?_⟩
    exact Option.some.inj (hchain.symm.trans hsome)
  | made hchain hnew hcells hfree =>
    exact h.concat_made hlevel rfl hchain hnew hcells hfree

end Plan

namespace Graph

open Build

/-! ### Reading all rows -/

/-- **After the rows, the elements of every level are those of the grouping.** `read` are the rows
that have been read before. -/
theorem tracks_of_forM_push {p : Plan} (hp : p.WellFormed) {header : List String}
    {read rows : List Row} {u : Unit} {g g' : Graph} {es : List Element}
    (hheader : ∀ r ∈ rows, r.columns = header)
    (hknown : ∀ ps, g.positions? = some ps → p.positions header = .ok ps)
    (hg : g.Represents p es)
    (htracks : ∀ i < p.levels.length, p.Tracks read i (elementsAt es i))
    (h : Yields (rows.forM (push p)) g u g') :
    ∃ es', g'.Represents p es' ∧
      ∀ i < p.levels.length, p.Tracks (read ++ rows) i (elementsAt es' i) :=
  (forM_push_keeps hp (fun _ _ _ _ _ _ hlevel htracks henters => htracks.enters hlevel henters)
    hheader hknown hg htracks h).2

/-! ### The documents -/

/-- What a slot holds is read off as the document of its level. -/
theorem slotDocument_slotOf {p : Plan} {es : List Element} {child : Nat} {level : Level}
    {k : Chain} {f : Nat → Document} {f' : Element → Document}
    (hlevel : p.levels[child]? = some level)
    (h : ∀ i e, es[i]? = some e → e.isBelow child k → f i = f' e) :
    slotDocument f (p.slotOf es k child) =
      level.document ((es.filter (Element.isBelow child k)).map f') := by
  have hsingle : p.isSingle child = level.single := by
    rw [Plan.isSingle, hlevel, Option.any_some]
  rw [Plan.slotOf, Level.document, hsingle, ← map_placesOf h]
  split
  · rw [List.head?_map]
    rfl
  · rfl

theorem elementsAt_filter_dropLast (es : List Element) (i : Nat) (k : Chain) :
    (elementsAt es i).filter (fun e => e.chain.dropLast == k) =
      es.filter (Element.isBelow i k) := by
  rw [elementsAt, List.filter_filter]
  refine List.filter_congr fun e _ => ?_
  rw [Element.isBelow, Bool.and_comm]

/-- The document of an element is its document in the grouping, as soon as `depth` reaches down to
the last level. -/
theorem documentAt_eq_element {p : Plan} (hp : p.WellFormed) {rows : List Row} {g : Graph}
    {es : List Element} (hg : g.Represents p es)
    (htracks : ∀ i < p.levels.length, p.Tracks rows i (elementsAt es i)) {depth place : Nat}
    {e : Element} (he : es[place]? = some e) (hdepth : p.levels.length ≤ depth + e.level) :
    documentAt p g.nodes depth place = Plan.element hp rows e.level e.chain := by
  induction depth generalizing place e with
  | zero =>
    have hlevel := hg.level_lt (List.mem_of_getElem? he)
    omega
  | succ depth ih =>
    have hmem := List.mem_of_getElem? he
    have hlevel := hg.level_lt hmem
    obtain ⟨r, hfirst, hcells⟩ := (htracks _ hlevel).first e (mem_elementsAt.mpr ⟨hmem, rfl⟩)
    have hown : p.cellsOf rows e.level e.chain = e.cells := by
      rw [Plan.cellsOf, hfirst, Option.bind_some, hcells, Option.getD_some]
    -- Child levels come later in the plan, so one step less of depth reaches their last level.
    have hbelow : ∀ child ∈ p.childLevels e.level, ∀ level, p.levels[child]? = some level →
        slotDocument (documentAt p g.nodes depth) (p.slotOf es e.chain child) =
          level.document ((p.idsBelow rows child e.chain).map fun id =>
            Plan.element hp rows child (e.chain ++ [id])) := by
      intro child hchild level hlevel
      obtain ⟨hlt, hchild⟩ := hp.lt_of_mem_childLevels hchild
      have hplaces : ∀ i a, es[i]? = some a → a.isBelow child e.chain →
          documentAt p g.nodes depth i = Plan.element hp rows child a.chain := by
        intro i a ha habelow
        obtain ⟨rfl, -⟩ := Element.isBelow_iff.mp habelow
        exact ih ha (by omega)
      have hchains := congrArg (List.map (Plan.element hp rows child))
        ((htracks child hchild).below e.chain)
      rw [List.map_map, List.map_map] at hchains
      rw [slotDocument_slotOf hlevel hplaces, ← elementsAt_filter_dropLast]
      exact congrArg level.document hchains
    rw [documentAt, hg.nodes, List.getElem?_map, he, Plan.element_eq, hown, ← hg.nodes]
    simp only [Option.map_some, Plan.nodeOf, ← List.map_prod_right_eq_zip, hp.children_eq _ hlevel,
      List.filterMap_map]
    congr 2
    refine List.filterMap_congr fun child hchild => ?_
    refine Option.map_congr fun level hlevel => ?_
    rw [hbelow child hchild level hlevel]

/-- The root elements have chains of one row number. -/
theorem elementsAt_zero_eq_filter {p : Plan} (hp : p.WellFormed) {rows : List Row}
    {es : List Element} (h : p.Tracks rows 0 (elementsAt es 0)) :
    (elementsAt es 0).filter (fun e => e.chain.dropLast == []) = elementsAt es 0 := by
  refine List.filter_eq_self.mpr fun e he => ?_
  obtain ⟨r, hfirst, -⟩ := h.first e he
  have hcarries := (Plan.chain?_eq_some_iff hp).mp (Plan.firstRow?_eq_some hfirst).1
  generalize e.chain = k at hcarries
  cases hcarries with
  | root => rfl
  | child hlevel hparent _ _ =>
    exact absurd (hp.parent_lt 0 _ hlevel _ hparent) (Nat.not_lt_zero _)

theorem finish_eq_map_element {p : Plan} (hp : p.WellFormed) {rows : List Row} {g : Graph}
    {es : List Element} (hg : g.Represents p es)
    (htracks : ∀ i < p.levels.length, p.Tracks rows i (elementsAt es i)) :
    g.finish p = (p.idsBelow rows 0 []).map fun id => Plan.element hp rows 0 [id] := by
  have h₀ := htracks 0 hp.levels_pos
  calc g.finish p
      = (elementsAt es 0).map (fun e => Plan.element hp rows 0 e.chain) := by
        rw [finish, hg.roots]
        refine map_placesOf fun i e he hroot => ?_
        rw [← Element.isRoot_iff.mp hroot]
        exact documentAt_eq_element hp hg htracks he (Nat.le_add_right ..)
    _ = ((elementsAt es 0).map Element.chain).map (Plan.element hp rows 0) := by
        rw [List.map_map]
        rfl
    _ = (p.idsBelow rows 0 []).map fun id => Plan.element hp rows 0 [id] := by
        rw [← elementsAt_zero_eq_filter hp h₀, h₀.below, List.map_map]
        rfl

/-- A row for a student and a class. -/
def classRow (student : Int64) (name : String) (number? : Option Int64) (title : String) : Row where
  columns := ["t0.name", "t1.title", "t0.##rowid", "t1.##rowid"]
  cells := [.text name, .text title, .integer student, (number?.map Value.integer).getD .null]

/-- Three students, two of whom share a class; the last has none, and one row comes twice. -/
def classRows : List Row :=
  [classRow 1 "Ann" (some 10) "Art", classRow 2 "Bob" (some 10) "Art",
    classRow 1 "Ann" (some 11) "Law", classRow 3 "Eve" none "", classRow 1 "Ann" (some 10) "Art"]

end Graph

end NestedQuery
