import NestedQuery.Proofs.Graph.Grouping
import NestedQuery.Proofs.Graph.Shape
import NestedQuery.Proofs.Graph.Trace

/-!
# Reading only adds

Whatever comes of a row, what was built before it stays: elements keep their cells and witnesses,
collections and roots go on at their ends, and a place for one element keeps the element that it
has. A row may fail after it has made elements at the levels above; they stay as well, and later
rows find them.

All this follows from one fact of `represents_after_append`: later rows only add elements at the
end of the list that the graph represents. `Graph.Grows` says what that means for the graph, and
`Plan.Extends` what it means for the documents (`after_append_grows`).
-/

namespace NestedQuery

/-! ### Growing -/

namespace ChildSlot

/-- The places in a slot. -/
def places : ChildSlot → List Nat
  | many places => places
  | one place? => place?.toList

/-- A slot goes on at its end, and keeps the element if it has place for one only. -/
inductive Grows : ChildSlot → ChildSlot → Prop
  | many (places more : List Nat) : Grows (many places) (many (places ++ more))
  | filled (place : Nat) : Grows (one (some place)) (one (some place))
  | free (place? : Option Nat) : Grows (one none) (one place?)

theorem Grows.isPrefix_places {s s' : ChildSlot} (h : s.Grows s') : s.places <+: s'.places := by
  cases h with
  | many places more => exact List.prefix_append _ _
  | filled => exact List.prefix_rfl
  | free => exact List.nil_prefix

end ChildSlot

/-- An element keeps all that it has, and its slots grow. -/
structure Node.Grows (n n' : Node) : Prop where
  /-- It stays at its level. -/
  level : n'.level = n.level
  /-- It keeps its cells. -/
  cells : n'.cells = n.cells
  /-- It keeps the row numbers of its witnesses. -/
  witnesses : n'.witnesses = n.witnesses
  /-- What is below it grows. -/
  slots : List.Forall₂ ChildSlot.Grows n.slots n'.slots

/-- A graph keeps all that it has, and grows. -/
structure Graph.Grows (g g' : Graph) : Prop where
  /-- The columns are read where they were. -/
  positions : ∀ ps, g.positions? = some ps → g'.positions? = some ps
  /-- An element stays at its place and grows. -/
  nodes : ∀ (place : Nat) (n : Node), g.nodes[place]? = some n →
    ∃ n', g'.nodes[place]? = some n' ∧ n.Grows n'
  /-- A chain leads to the same place. -/
  index : ∀ key place, g.index.lookup key = some place → g'.index.lookup key = some place
  /-- Roots are added at the end. -/
  roots : g.roots <+: g'.roots

namespace Plan

/-- The document of an element from its cells and the documents below it, for each child level. -/
def documentOf (p : Plan) (i : Nat) (cells : List (Target × Document))
    (below : Nat → List Document) : Document :=
  (Shape.insertAll (cells ++ (p.childLevels i).filterMap fun child =>
    (p.levels[child]?).map fun level => (level.target, level.document (below child)))
    .empty).toDocument

/-- The second document is that of the same element with more below it: the cells are the same, and
each list of documents below the element has those of the first one at its beginning, in their
order, each of them extended in turn. -/
inductive Extends (p : Plan) : Nat → Document → Document → Prop
  | element {i : Nat} (cells : List (Target × Document)) (below below' : Nat → List Document) :
      (∀ child ∈ p.childLevels i, (below child).length ≤ (below' child).length) →
      (∀ child ∈ p.childLevels i, ∀ (j : Nat) (d d' : Document), (below child)[j]? = some d →
        (below' child)[j]? = some d' → Extends p child d d') →
      Extends p i (p.documentOf i cells below) (p.documentOf i cells below')

end Plan

/-! ### What the elements of a longer list say -/

variable {p : Plan} {es es' : List Element} {e : Element} {k : Chain} {child : Nat}

theorem placesOf_prefix (q : Element → Bool) (h : es <+: es') :
    placesOf q es <+: placesOf q es' := by
  obtain ⟨more, rfl⟩ := h
  rw [placesOf, placesOf, List.zipIdx_append, List.filter_append, List.map_append]
  exact List.prefix_append _ _

theorem mem_placesOf {q : Element → Bool} {place : Nat} :
    place ∈ placesOf q es ↔ ∃ e, es[place]? = some e ∧ q e := by
  rw [placesOf, List.mem_map]
  constructor
  · rintro ⟨x, hx, rfl⟩
    obtain ⟨hx, hq⟩ := List.mem_filter.mp hx
    exact ⟨x.1, List.mem_zipIdx_iff_getElem?.mp hx, hq⟩
  · rintro ⟨e, he, hq⟩
    exact ⟨(e, place), List.mem_filter.mpr ⟨List.mem_zipIdx_iff_getElem?.mpr he, hq⟩, rfl⟩

namespace Plan

theorem exists_of_mem_slotOf {place : Nat} (h : place ∈ (p.slotOf es k child).places) :
    ∃ e, es[place]? = some e ∧ e.isBelow child k := by
  refine mem_placesOf.mp ?_
  rw [slotOf] at h
  split at h
  · exact List.mem_of_mem_head? (Option.mem_toList.mp h)
  · exact h

theorem slotOf_grows (p : Plan) (h : es <+: es') (k : Chain) (child : Nat) :
    (p.slotOf es k child).Grows (p.slotOf es' k child) := by
  obtain ⟨more, hmore⟩ := placesOf_prefix (Element.isBelow child k) h
  rw [slotOf, slotOf, ← hmore]
  split
  · cases placesOf (Element.isBelow child k) es with
    | nil => exact .free _
    | cons place places => exact .filled place
  · exact .many _ _

theorem nodeOf_grows (p : Plan) (h : es <+: es') (e : Element) :
    (p.nodeOf es e).Grows (p.nodeOf es' e) where
  level := rfl
  cells := rfl
  witnesses := rfl
  slots := List.forall₂_map_left_iff.mpr (List.forall₂_map_right_iff.mpr
    (List.forall₂_same.mpr fun child _ => p.slotOf_grows h e.chain child))

end Plan

namespace Graph

variable {g g' : Graph} {depth place : Nat}

/-- **More elements at the end make the graph grow.** -/
theorem Represents.grows (hg : g.Represents p es) (hg' : g'.Represents p es') (h : es <+: es')
    (hpositions : ∀ ps, g.positions? = some ps → g'.positions? = some ps) : g.Grows g' where
  positions := hpositions
  nodes place n hn := by
    obtain ⟨e, he, rfl⟩ := hg.getElem?_nodes_eq_some_iff.mp hn
    exact ⟨p.nodeOf es' e, hg'.getElem?_nodes_eq_some_iff.mpr ⟨e, getElem?_of_grown h he, rfl⟩,
      p.nodeOf_grows h e⟩
  index := by
    rintro ⟨i, k⟩ place hplace
    obtain ⟨e, he, hkey⟩ := (hg.index i k place).mp hplace
    exact (hg'.index i k place).mpr ⟨e, getElem?_of_grown h he, hkey⟩
  roots := by
    rw [hg.roots, hg'.roots]
    exact placesOf_prefix _ h

/-! ### What the documents of a longer list are -/

/-- A slot is read off from the documents at its places. -/
theorem slotDocument_eq_document {level : Level} (hlevel : p.levels[child]? = some level)
    (es : List Element) (k : Chain) (f : Nat → Document) :
    slotDocument f (p.slotOf es k child) =
      level.document ((p.slotOf es k child).places.map f) := by
  rw [Plan.slotOf, Level.document, Plan.isSingle_eq hlevel]
  by_cases h : level.single
  · simp only [if_pos h, slotDocument, ChildSlot.places]
    cases (placesOf (Element.isBelow child k) es).head? <;> rfl
  · simp only [if_neg h, slotDocument, ChildSlot.places]

theorem documentAt_succ (hp : p.WellFormed) (hg : g.Represents p es) (he : es[place]? = some e)
    (depth : Nat) :
    documentAt p g.nodes (depth + 1) place = p.documentOf e.level e.cells fun child =>
      (p.slotOf es e.chain child).places.map (documentAt p g.nodes depth) := by
  have hlevel := hg.level_lt (List.mem_of_getElem? he)
  rw [documentAt, hg.getElem?_nodes_eq_some_iff.mpr ⟨e, he, rfl⟩, Plan.documentOf,
    Shape.insertAll_append]
  simp only [Plan.nodeOf, ← List.map_prod_right_eq_zip, hp.children_eq _ hlevel,
    List.filterMap_map]
  congr 2
  refine List.filterMap_congr fun child _ => Option.map_congr fun level hlevel => ?_
  rw [slotDocument_eq_document hlevel]

/-- The document of an element is extended when elements are added, as soon as `depth` reaches down
to the last level. -/
theorem extends_documentAt (hp : p.WellFormed) (hg : g.Represents p es)
    (hg' : g'.Represents p es') (h : es <+: es') (he : es[place]? = some e)
    (hdepth : p.levels.length ≤ depth + e.level) :
    p.Extends e.level (documentAt p g.nodes depth place) (documentAt p g'.nodes depth place) := by
  induction depth generalizing place e with
  | zero =>
    have hlevel := hg.level_lt (List.mem_of_getElem? he)
    omega
  | succ depth ih =>
    rw [documentAt_succ hp hg he, documentAt_succ hp hg' (getElem?_of_grown h he)]
    refine .element _ _ _ (fun child _ => ?_) fun child hchild j d d' hd hd' => ?_
    · rw [List.length_map, List.length_map]
      exact (p.slotOf_grows h e.chain child).isPrefix_places.length_le
    · rw [List.getElem?_map, Option.map_eq_some_iff] at hd hd'
      obtain ⟨place₁, hplace₁, rfl⟩ := hd
      obtain ⟨place₂, hplace₂, rfl⟩ := hd'
      -- The lists of places agree as far as the first one goes.
      obtain ⟨more, hmore⟩ := (p.slotOf_grows h e.chain child).isPrefix_places
      have hlt := (List.getElem?_eq_some_iff.mp hplace₁).1
      rw [← hmore, List.getElem?_append_left hlt] at hplace₂
      obtain rfl : place₁ = place₂ := Option.some.inj (hplace₁.symm.trans hplace₂)
      obtain ⟨a, ha, hbelow⟩ := Plan.exists_of_mem_slotOf (List.mem_of_getElem? hplace₁)
      obtain ⟨rfl, -⟩ := Element.isBelow_iff.mp hbelow
      have hlevels := hp.lt_of_mem_childLevels hchild
      exact ih ha (by omega)

/-- The documents that there were come first, each of them extended. -/
theorem finish_extends (hp : p.WellFormed) (hg : g.Represents p es) (hg' : g'.Represents p es')
    (h : es <+: es') :
    ∃ kept later, g'.finish p = kept ++ later ∧
      List.Forall₂ (p.Extends 0) (g.finish p) kept := by
  obtain ⟨more, hmore⟩ := placesOf_prefix Element.isRoot h
  refine ⟨g.roots.map (documentAt p g'.nodes p.levels.length),
    more.map (documentAt p g'.nodes p.levels.length), ?_, ?_⟩
  · rw [finish, hg'.roots, hg.roots, ← hmore, List.map_append]
  · rw [finish, hg.roots]
    refine List.forall₂_map_left_iff.mpr (List.forall₂_map_right_iff.mpr
      (List.forall₂_same.mpr fun place hplace => ?_))
    obtain ⟨e, he, hroot⟩ := mem_placesOf.mp hplace
    rw [← Element.isRoot_iff.mp hroot]
    exact extends_documentAt hp hg hg' h he (Nat.le_add_right ..)

/-- **Reading only adds.** After any rows, some of which may have failed, further rows keep all that
the graph has, whatever comes of them; and each document that the graph had is extended and stays at
its place. -/
theorem after_append_grows (hp : p.WellFormed) (rows more : List Row) :
    (after p rows).Grows (after p (rows ++ more)) ∧
      ∃ kept later, (after p (rows ++ more)).finish p = kept ++ later ∧
        List.Forall₂ (p.Extends 0) ((after p rows).finish p) kept := by
  obtain ⟨es, hg⟩ := represents_after hp rows
  obtain ⟨es', hg', hes, hpositions⟩ := represents_after_append hp hg more
  exact ⟨hg.grows hg' hes hpositions, finish_extends hp hg hg' hes⟩

/-- People with a place for one mentor, who has topics. -/
def mentorPlan : Plan :=
  ((((((Plan.root "t0.##rowid" "people").addRowId "t1.##rowid").2.addRowId "t2.##rowid").2.addLevel
      ⟨some 0, 1, true, [.field "mentor"], "mentor", "mentors", []⟩).addLevel
      ⟨some 1, 2, false, [.field "topics"], "mentor.topics", "topics", []⟩).addColumn
    ⟨"t0.name", 0, [.field "name"], .text⟩).addColumn ⟨"t2.title", 2, [], .text⟩

/-- A row for a person, a mentor and a topic. -/
def mentorRow (person : Int64) (name : String) (mentor topic : Int64) (title : String) : Row where
  columns := ["t0.name", "t2.title", "t0.##rowid", "t1.##rowid", "t2.##rowid"]
  cells := [.text name, .text title, .integer person, .integer mentor, .integer topic]

theorem built_mentorPlan : mentorPlan.Built :=
  .addColumn (.addColumn (.addLevel _ _ _ _ (.addLevel _ _ _ _
    (.addRowId _ (.addRowId _ (.root _ _))) (by decide) (by decide)) (by decide) (by decide))
    (by decide)) (by decide)

/-- Ann has a mentor with a topic. -/
def mentorRows : List Row :=
  [mentorRow 1 "Ann" 5 1 "Art"]

/-- A row that names a second mentor, and fails. -/
def secondMentorRow : Row :=
  mentorRow 1 "Ann" 6 2 "Law"

/-- After the row that fails comes one with another topic of the first mentor. -/
def furtherMentorRows : List Row :=
  [secondMentorRow, mentorRow 1 "Ann" 5 3 "Set"]

theorem after_append_grows_mentors :
    Fails (push mentorPlan secondMentorRow) (after mentorPlan mentorRows)
        (.crowded "mentors" "mentor" (.secondRow 6)) ∧
      (after mentorPlan mentorRows).finish mentorPlan =
        [.object [("name", .text "Ann"),
          ("mentor", .object [("topics", .array [.text "Art"])])]] ∧
      (after mentorPlan (mentorRows ++ furtherMentorRows)).finish mentorPlan =
        [.object [("name", .text "Ann"),
          ("mentor", .object [("topics", .array [.text "Art", .text "Set"])])]] ∧
      (after mentorPlan mentorRows).Grows (after mentorPlan (mentorRows ++ furtherMentorRows)) ∧
      ∃ kept later,
        (after mentorPlan (mentorRows ++ furtherMentorRows)).finish mentorPlan = kept ++ later ∧
          List.Forall₂ (mentorPlan.Extends 0) ((after mentorPlan mentorRows).finish mentorPlan)
            kept :=
  ⟨rfl, rfl, rfl, after_append_grows built_mentorPlan.wellFormed mentorRows furtherMentorRows⟩

end Graph

end NestedQuery
