import Mathlib.Data.List.Nodup
import NestedQuery.Graph.Materialize
import NestedQuery.Proofs.Graph.Plan

/-!
# The elements of a graph

A graph keeps its elements in pieces: their cells stand in a list, their chains are keys of an
index, and what hangs below them is found in slots. `Graph.Represents` puts the pieces together:
a graph represents a list of `Element`s if all three say what the list says. The slots of an
element then hold the places of those elements whose chains extend its own by one row number.

A graph that makes an element, enters it into the index and links it represents one element more
(`Represents.root`, `Represents.below`).
-/

namespace NestedQuery

/-- An element with its chain. -/
structure Element where
  /-- Its level. -/
  level : Nat
  /-- Its chain. -/
  chain : Chain
  /-- Its cells with their targets, in the order of the plan's columns. -/
  cells : List (Target × Document)
  /-- The row numbers of its witnesses. -/
  witnesses : List (Option Int64)

namespace Element

/-- Whether the element has a level and hangs below a chain. -/
def isBelow (level : Nat) (parent : Chain) (e : Element) : Bool :=
  e.level == level && e.chain.dropLast == parent

/-- Whether the element is a root. -/
def isRoot (e : Element) : Bool :=
  e.level == 0

theorem isBelow_iff {level : Nat} {k : Chain} {e : Element} :
    e.isBelow level k ↔ e.level = level ∧ e.chain.dropLast = k := by
  rw [isBelow, Bool.and_eq_true, beq_iff_eq, beq_iff_eq]

theorem isRoot_iff {e : Element} : e.isRoot ↔ e.level = 0 := by
  rw [isRoot, beq_iff_eq]

end Element

variable {es : List Element} {e : Element}

/-! ### Places -/

/-- The places of the elements at which `q` holds. -/
def placesOf (q : Element → Bool) (es : List Element) : List Nat :=
  (es.zipIdx.filter fun x => q x.1).map Prod.snd

theorem placesOf_concat (q : Element → Bool) (es : List Element) (e : Element) :
    placesOf q (es ++ [e]) = placesOf q es ++ if q e then [es.length] else [] := by
  rw [placesOf, List.zipIdx_append, List.filter_append, List.map_append, ← placesOf]
  congr 1
  by_cases he : q e <;> simp [he]

/-- What stands at the places is what is there of the elements. -/
theorem map_placesOf {α : Type} {q : Element → Bool} {f : Nat → α} {f' : Element → α}
    (h : ∀ i e, es[i]? = some e → q e → f i = f' e) :
    (placesOf q es).map f = (es.filter q).map f' := by
  have hfilter : es.filter q = (es.zipIdx.filter fun x => q x.1).map Prod.fst := by
    conv_lhs => rw [← List.zipIdx_map_fst 0 es]
    exact List.filter_map ..
  rw [placesOf, hfilter, List.map_map, List.map_map]
  refine List.map_congr_left fun x hx => ?_
  obtain ⟨hx, hq⟩ := List.mem_filter.mp hx
  exact h x.2 x.1 (List.mem_zipIdx_iff_getElem?.mp hx) hq

theorem placesOf_eq_nil_iff {q : Element → Bool} : placesOf q es = [] ↔ ∀ e ∈ es, ¬ q e := by
  rw [placesOf, List.map_eq_nil_iff, List.filter_eq_nil_iff]
  constructor
  · intro h e he
    obtain ⟨i, hi⟩ := List.mem_iff_getElem?.mp he
    exact h (e, i) (List.mem_zipIdx_iff_getElem?.mpr hi)
  · exact fun h x hx => h x.1 (List.fst_mem_of_mem_zipIdx hx)

namespace Plan

variable {p : Plan}

/-! ### Slots -/

/-- Whether a level has one element or none below each element above it. -/
def isSingle (p : Plan) (child : Nat) : Bool :=
  (p.levels[child]?).any Level.single

theorem isSingle_eq {child : Nat} {level : Level} (h : p.levels[child]? = some level) :
    p.isSingle child = level.single := by
  rw [isSingle, h, Option.any_some]

/-- The slot for a child level below a chain. -/
def slotOf (p : Plan) (es : List Element) (parent : Chain) (child : Nat) : ChildSlot :=
  let places := placesOf (Element.isBelow child parent) es
  if p.isSingle child then .one places.head? else .many places

/-- How a graph keeps an element among others. -/
def nodeOf (p : Plan) (es : List Element) (e : Element) : Node :=
  ⟨e.level, e.cells, (p.children e.level).map (p.slotOf es e.chain), e.witnesses⟩

/-- How a graph keeps an element that has just been made. -/
def newNode (p : Plan) (e : Element) : Node :=
  ⟨e.level, e.cells, (p.children e.level).map (Graph.emptySlot p), e.witnesses⟩

theorem slotOf_eq_emptySlot {parent : Chain} {child : Nat}
    (h : ∀ e ∈ es, ¬ e.isBelow child parent) :
    p.slotOf es parent child = Graph.emptySlot p child := by
  rw [slotOf, placesOf_eq_nil_iff.mpr h]
  rfl

/-- An element comes into the slot that it hangs in. -/
theorem slotOf_concat (p : Plan) (es : List Element) (e : Element) (parent : Chain)
    (child : Nat) :
    p.slotOf (es ++ [e]) parent child =
      if e.isBelow child parent then (p.slotOf es parent child).add es.length
      else p.slotOf es parent child := by
  rw [slotOf, slotOf, placesOf_concat]
  by_cases he : e.isBelow child parent
  · rw [if_pos he, if_pos he]
    split
    · rw [List.head?_append]
      rfl
    · rfl
  · rw [if_neg he, if_neg he, List.append_nil]

/-- A slot that is not full is for a collection, or has nothing in it. -/
theorem isFull_slotOf {parent : Chain} {child : Nat} (h : (p.slotOf es parent child).isFull = false)
    (hsingle : p.isSingle child) : ∀ e ∈ es, ¬ e.isBelow child parent := by
  rw [slotOf] at h
  simp only [if_pos hsingle, ChildSlot.isFull, Option.isSome_eq_false_iff,
    Option.isNone_iff_eq_none, List.head?_eq_none_iff] at h
  exact placesOf_eq_nil_iff.mp h

/-- A slot that is full is for one element, and has one in it. -/
theorem isBelow_of_isFull_slotOf {parent : Chain} {child : Nat}
    (h : (p.slotOf es parent child).isFull = true) :
    p.isSingle child ∧ ∃ e ∈ es, e.isBelow child parent := by
  rw [slotOf] at h
  by_cases hsingle : p.isSingle child
  · simp only [if_pos hsingle, ChildSlot.isFull, List.isSome_head?] at h
    refine ⟨hsingle, ?_⟩
    by_contra hnone
    push Not at hnone
    rw [placesOf_eq_nil_iff.mpr hnone] at h
    exact absurd h (by simp)
  · simp only [if_neg hsingle, ChildSlot.isFull] at h
    exact absurd h (by simp)

theorem nodeOf_concat_of_not_isBelow {a : Element}
    (h : ∀ child ∈ p.children a.level, ¬ e.isBelow child a.chain) :
    p.nodeOf (es ++ [e]) a = p.nodeOf es a := by
  rw [nodeOf, nodeOf]
  congr 1
  refine List.map_congr_left fun child hchild => ?_
  rw [slotOf_concat, if_neg (h child hchild)]

/-- An element comes into one slot of the element above it. -/
theorem nodeOf_concat_of_isBelow {a : Element} {slot : Nat} (hnodup : (p.children a.level).Nodup)
    (hslot : (p.children a.level).idxOf? e.level = some slot) (he : e.chain.dropLast = a.chain) :
    p.nodeOf (es ++ [e]) a = (p.nodeOf es a).fill slot es.length := by
  obtain ⟨hlt, hlevel, -⟩ := List.idxOf?_eq_some_iff.mp hslot
  rw [nodeOf, nodeOf, Node.fill]
  congr 1
  refine List.ext_getElem? fun i => ?_
  rw [List.getElem?_modify, List.getElem?_map, List.getElem?_map]
  cases hi : (p.children a.level)[i]? with
  | none => rfl
  | some child =>
    rw [Option.map_some, Option.map_some, Option.map_eq_map, Option.map_some, slotOf_concat]
    -- Children are distinct, so only the slot of the new level changes.
    by_cases hslot : slot = i
    · obtain rfl : child = e.level := by
        rw [← hslot, List.getElem?_eq_getElem hlt, hlevel] at hi
        exact (Option.some.inj hi).symm
      rw [if_pos hslot, if_pos (Element.isBelow_iff.mpr ⟨rfl, he⟩)]
    · have hne : ¬ e.isBelow child a.chain := by
        intro hbelow
        obtain ⟨hi, hchild⟩ := List.getElem?_eq_some_iff.mp hi
        have hsame : (p.children a.level)[slot] = (p.children a.level)[i] := by
          rw [hlevel, hchild, (Element.isBelow_iff.mp hbelow).1]
        exact hslot (hnodup.getElem_inj_iff.mp hsame)
      rw [if_neg hslot, if_neg hne]

end Plan

/-! ### Graphs -/

/-- The elements of a level, in the order in which they were made. -/
def elementsAt (es : List Element) (i : Nat) : List Element :=
  es.filter fun e => e.level == i

theorem mem_elementsAt {i : Nat} : e ∈ elementsAt es i ↔ e ∈ es ∧ e.level = i := by
  rw [elementsAt, List.mem_filter, beq_iff_eq]

theorem elementsAt_concat (es : List Element) (e : Element) (i : Nat) :
    elementsAt (es ++ [e]) i = if e.level = i then elementsAt es i ++ [e] else elementsAt es i := by
  rw [elementsAt, List.filter_append]
  by_cases hi : e.level = i
  · have hone : [e].filter (fun e => e.level == i) = [e] := by simp [hi]
    rw [hone, if_pos hi, elementsAt]
  · have hnone : [e].filter (fun e => e.level == i) = [] := by simp [hi]
    rw [hnone, if_neg hi, List.append_nil, elementsAt]

/-- What an element of a level hangs below: nothing if the level has no parent, else the element at
a place. -/
inductive Above (es : List Element) (level : Level) : Option Nat → Chain → Prop
  | root : level.parent? = none → Above es level none []
  | below {place : Nat} {a : Element} :
      level.parent? = some a.level → es[place]? = some a → Above es level (some place) a.chain

theorem Above.concat {level : Level} {parent? : Option Nat} {k : Chain}
    (h : Above es level parent? k) (e : Element) : Above (es ++ [e]) level parent? k := by
  cases h with
  | root hnone => exact .root hnone
  | below hparent hplace => exact .below hparent (getElem?_concat_eq_some_iff.mpr (Or.inl hplace))

namespace Graph

/-- The graph keeps these elements. -/
structure Represents (p : Plan) (g : Graph) (es : List Element) : Prop where
  /-- The nodes have the cells, the witnesses and the slots of the elements. -/
  nodes : g.nodes = es.map (p.nodeOf es)
  /-- The index leads to the place of the only element with a level and a chain. -/
  index : ∀ level chain place, g.index.lookup (level, chain) = some place ↔
    ∃ e, es[place]? = some e ∧ e.level = level ∧ e.chain = chain
  /-- The roots are the elements of level 0. -/
  roots : g.roots = placesOf Element.isRoot es
  /-- The level of an element is one of the plan, and what the element hangs below is there. -/
  above : ∀ e ∈ es, ∃ level parent? k id, p.levels[e.level]? = some level ∧
    Above es level parent? k ∧ e.chain = k ++ [id]

variable {p : Plan} {g g' : Graph} {level : Level} {k : Chain}

theorem represents_nil (p : Plan) : Represents p {} [] where
  nodes := rfl
  index _ _ _ := ⟨nofun, nofun⟩
  roots := rfl
  above _ h := absurd h List.not_mem_nil

/-- At the place of an element the graph keeps this element. -/
theorem Represents.getElem?_nodes_eq_some_iff (h : Represents p g es) {place : Nat} {n : Node} :
    g.nodes[place]? = some n ↔ ∃ e, es[place]? = some e ∧ p.nodeOf es e = n := by
  rw [h.nodes, List.getElem?_map, Option.map_eq_some_iff]

/-- A level and a chain have one place. -/
theorem Represents.place_eq (h : Represents p g es) {i j : Nat} {a b : Element}
    (ha : es[i]? = some a) (hb : es[j]? = some b) (hlevel : a.level = b.level)
    (hchain : a.chain = b.chain) : i = j := by
  have hi := (h.index a.level a.chain i).mpr ⟨a, ha, rfl, rfl⟩
  have hj := (h.index a.level a.chain j).mpr ⟨b, hb, hlevel.symm, hchain.symm⟩
  exact Option.some.inj (hi.symm.trans hj)

/-- A chain that the index lacks is new. -/
theorem Represents.new_of_lookup (h : Represents p g es) {i : Nat}
    (hlookup : g.index.lookup (i, k) = none) : ∀ e ∈ es, ¬ (e.level = i ∧ e.chain = k) := by
  intro e he hkey
  obtain ⟨place, hplace⟩ := List.mem_iff_getElem?.mp he
  rw [(h.index i k place).mpr ⟨e, hplace, hkey⟩] at hlookup
  exact absurd hlookup (by simp)

/-- The index with one more entry leads to one more element. -/
theorem Represents.index_concat (h : Represents p g es) (e : Element)
    (hnew : ∀ a ∈ es, ¬ (a.level = e.level ∧ a.chain = e.chain)) (i : Nat) (chain : Chain)
    (place : Nat) :
    (((e.level, e.chain), es.length) :: g.index).lookup (i, chain) = some place ↔
      ∃ a, (es ++ [e])[place]? = some a ∧ a.level = i ∧ a.chain = chain := by
  simp only [getElem?_concat_eq_some_iff]
  -- The new entry hides no other, because no element has its key.
  rw [List.lookup_cons]
  by_cases hkey : (i, chain) = (e.level, e.chain)
  · obtain ⟨rfl, rfl⟩ := Prod.mk.inj hkey
    rw [beq_self_eq_true]
    constructor
    · intro hplace
      exact ⟨e, Or.inr ⟨(Option.some.inj hplace).symm, rfl⟩, rfl, rfl⟩
    · rintro ⟨a, hold | ⟨rfl, -⟩, hlevel, hchain⟩
      · exact absurd ⟨hlevel, hchain⟩ (hnew a (List.mem_of_getElem? hold))
      · rfl
  · rw [beq_eq_false_iff_ne.mpr hkey, h.index]
    refine exists_congr fun a => and_congr_left fun hakey => ?_
    refine (or_iff_left ?_).symm
    rintro ⟨-, rfl⟩
    exact hkey (Prod.ext hakey.1.symm hakey.2.symm)

/-- Nothing hangs below an element that is new. -/
theorem Represents.not_isBelow (h : Represents p g es) (hp : p.WellFormed)
    (hlevel : p.levels[e.level]? = some level)
    (hnew : ∀ a ∈ es, ¬ (a.level = e.level ∧ a.chain = e.chain)) :
    ∀ child ∈ p.children e.level, ∀ a ∈ es ++ [e], ¬ a.isBelow child e.chain := by
  intro child hchild a ha hbelow
  obtain ⟨halevel, hachain⟩ := Element.isBelow_iff.mp hbelow
  rw [hp.children_eq _ (List.getElem?_eq_some_iff.mp hlevel).1] at hchild
  rcases List.mem_append.mp ha with hold | hlast
  · obtain ⟨l, parent?, k, id, hl, habove, hk⟩ := h.above a hold
    obtain ⟨l', hl', hparent⟩ := Plan.mem_childLevels.mp hchild
    rw [halevel, hl', Option.some.injEq] at hl
    rw [hk, List.dropLast_concat] at hachain
    cases habove with
    | root hnone => exact absurd ((hl ▸ hparent).symm.trans hnone) (by simp)
    | @below place b hb hplace =>
      have hlevels := Option.some.inj ((hl ▸ hparent).symm.trans hb)
      exact hnew b (List.mem_of_getElem? hplace) ⟨hlevels.symm, hachain⟩
  · rw [List.mem_singleton.mp hlast] at halevel
    exact Nat.ne_of_lt (hp.lt_of_mem_childLevels hchild).1 halevel

theorem Represents.nodeOf_self (h : Represents p g es) (hp : p.WellFormed)
    (hlevel : p.levels[e.level]? = some level)
    (hnew : ∀ a ∈ es, ¬ (a.level = e.level ∧ a.chain = e.chain)) :
    p.nodeOf (es ++ [e]) e = p.newNode e := by
  rw [Plan.nodeOf, Plan.newNode]
  congr 1
  exact List.map_congr_left fun child hchild =>
    Plan.slotOf_eq_emptySlot (h.not_isBelow hp hlevel hnew child hchild)

/-- An element that hangs below another is in one of its child levels. -/
theorem parent?_of_isBelow (hp : p.WellFormed) (hlevel : p.levels[e.level]? = some level)
    {a : Element} {child : Nat} (hchild : child ∈ p.children a.level)
    (ha : a.level < p.levels.length) (hbelow : e.isBelow child k) :
    level.parent? = some a.level := by
  rw [hp.children_eq _ ha] at hchild
  obtain ⟨l, hl, hparent⟩ := Plan.mem_childLevels.mp hchild
  rw [← (Element.isBelow_iff.mp hbelow).1, hlevel, Option.some.injEq] at hl
  rw [hl, hparent]

theorem Represents.level_lt (h : Represents p g es) (he : e ∈ es) :
    e.level < p.levels.length := by
  obtain ⟨_, _, _, _, hlevel, -⟩ := h.above e he
  exact (List.getElem?_eq_some_iff.mp hlevel).1

theorem Represents.above_concat (h : Represents p g es) {parent? : Option Nat} {id : Int64}
    (hlevel : p.levels[e.level]? = some level) (habove : Above es level parent? k)
    (hchain : e.chain = k ++ [id]) :
    ∀ a ∈ es ++ [e], ∃ level parent? k id, p.levels[a.level]? = some level ∧
      Above (es ++ [e]) level parent? k ∧ a.chain = k ++ [id] := by
  intro a ha
  rcases List.mem_append.mp ha with hold | hlast
  · obtain ⟨l, parent?, k, id, hl, habove, hk⟩ := h.above a hold
    exact ⟨l, parent?, k, id, hl, habove.concat e, hk⟩
  · rw [List.mem_singleton.mp hlast]
    exact ⟨level, parent?, k, id, hlevel, habove.concat e, hchain⟩

/-- **A new root element.** -/
theorem Represents.root (h : Represents p g es) (hp : p.WellFormed) {id : Int64}
    (hlevel : p.levels[e.level]? = some level) (hroot : level.parent? = none)
    (hchain : e.chain = [id])
    (hnew : ∀ a ∈ es, ¬ (a.level = e.level ∧ a.chain = e.chain))
    (hnodes : g'.nodes = g.nodes ++ [p.newNode e])
    (hindex : g'.index = ((e.level, e.chain), es.length) :: g.index)
    (hroots : g'.roots = g.roots ++ [es.length]) : Represents p g' (es ++ [e]) where
  nodes := by
    rw [hnodes, h.nodes, List.map_append, List.map_singleton, h.nodeOf_self hp hlevel hnew]
    congr 1
    -- No slot changes, since a root is below no element.
    refine List.map_congr_left fun a ha => (Plan.nodeOf_concat_of_not_isBelow ?_).symm
    intro child hchild hbelow
    have hparent := parent?_of_isBelow hp hlevel hchild (h.level_lt ha) hbelow
    rw [hroot] at hparent
    exact absurd hparent (by simp)
  index level chain place := hindex ▸ h.index_concat e hnew level chain place
  roots := by
    have hzero : e.isRoot := Element.isRoot_iff.mpr ((hp.parent_eq_none_iff _ _ hlevel).mp hroot)
    rw [hroots, h.roots, placesOf_concat, if_pos hzero]
  above := h.above_concat hlevel (.root hroot) hchain

/-- **A new element below another.** -/
theorem Represents.below (h : Represents p g es) (hp : p.WellFormed) {a : Element}
    {parent slot : Nat} {id : Int64} (hlevel : p.levels[e.level]? = some level)
    (hparent : level.parent? = some a.level) (ha : es[parent]? = some a)
    (hchain : e.chain = a.chain ++ [id])
    (hnew : ∀ a ∈ es, ¬ (a.level = e.level ∧ a.chain = e.chain))
    (hslot : (p.children a.level).idxOf? e.level = some slot)
    (hnodes : g'.nodes =
      (g.nodes ++ [p.newNode e]).modify parent (Node.fill slot es.length))
    (hindex : g'.index = ((e.level, e.chain), es.length) :: g.index)
    (hroots : g'.roots = g.roots) : Represents p g' (es ++ [e]) where
  nodes := by
    have hdrop : e.chain.dropLast = a.chain := by rw [hchain, List.dropLast_concat]
    have hlt := (List.getElem?_eq_some_iff.mp ha).1
    have halevel := h.level_lt (List.mem_of_getElem? ha)
    have hnodup : (p.children a.level).Nodup :=
      hp.children_eq _ halevel ▸ p.nodup_childLevels _
    rw [hnodes, h.nodes]
    -- A place is that of the element above, of another old element, or of the new one.
    refine List.ext_getElem? fun i => ?_
    rw [List.getElem?_modify, List.getElem?_map]
    cases hi : (es ++ [e])[i]? with
    | none =>
      rw [List.getElem?_eq_none_iff, List.length_append] at hi
      rw [List.getElem?_eq_none (by rwa [List.length_append, List.length_map])]
      rfl
    | some b =>
      rcases getElem?_concat_eq_some_iff.mp hi with hold | ⟨rfl, rfl⟩
      · have hb : (es.map (p.nodeOf es) ++ [p.newNode e])[i]? = some (p.nodeOf es b) := by
          rw [getElem?_concat_eq_some_iff, List.getElem?_map, hold]
          exact Or.inl rfl
        rw [hb, Option.map_eq_map, Option.map_some, Option.map_some]
        by_cases hplace : parent = i
        · obtain rfl : a = b := Option.some.inj (ha.symm.trans (hplace ▸ hold))
          rw [if_pos hplace, Plan.nodeOf_concat_of_isBelow hnodup hslot hdrop]
        · rw [if_neg hplace, Plan.nodeOf_concat_of_not_isBelow]
          intro child hchild hbelow
          -- Only one element has the level and the chain that the new one hangs below.
          have hblt := h.level_lt (List.mem_of_getElem? hold)
          have hblevel := parent?_of_isBelow hp hlevel hchild hblt hbelow
          refine hplace (h.place_eq ha hold ?_ ?_)
          · rw [hparent, Option.some.injEq] at hblevel
            exact hblevel
          · rw [← hdrop, (Element.isBelow_iff.mp hbelow).2]
      · have hlast : (es.map (p.nodeOf es) ++ [p.newNode b])[es.length]? = some (p.newNode b) :=
          getElem?_concat_eq_some_iff.mpr (Or.inr ⟨(List.length_map _).symm, rfl⟩)
        rw [hlast, Option.map_eq_map, Option.map_some, Option.map_some, if_neg (Nat.ne_of_lt hlt),
          h.nodeOf_self hp hlevel hnew]
  index level chain place := hindex ▸ h.index_concat e hnew level chain place
  roots := by
    have hzero : ¬ e.isRoot := by
      rw [Element.isRoot_iff, ← hp.parent_eq_none_iff _ _ hlevel, hparent]
      exact Option.some_ne_none _
    rw [hroots, h.roots, placesOf_concat, if_neg hzero, List.append_nil]
  above := h.above_concat hlevel (.below hparent ha) hchain

end Graph

end NestedQuery
