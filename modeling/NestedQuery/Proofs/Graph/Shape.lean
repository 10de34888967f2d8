import Mathlib.Data.List.Nodup
import NestedQuery.Graph.Shape

/-!
# What inserting builds

Cells that are inserted below one step come together in one member, which stands where the first of
them was put (`Shape.insertAll_under`). Members that are all positions, in order, are read off as an
array of them (`Shape.assembleMembers_of_positions`), and members with different names as an object
with these names (`Shape.assembleMembers_of_names`).
-/

namespace NestedQuery

/-- The target of a cell below a step. -/
def Segment.above {α : Type} (s : Segment) (cell : Target × α) : Target × α :=
  (s :: cell.1, cell.2)

/-- The text of a name is the name itself. -/
theorem Segment.eq_of_text {s t : Segment} (hs : s.isArg = false) (ht : t.isArg = false)
    (h : s.text = t.text) : s = t := by
  cases s with
  | arg i => cases hs
  | field m =>
    cases t with
    | arg j => cases ht
    | field n => exact congrArg field h

namespace Shape

/-- The shape with the documents of cells at their targets, one after another. -/
def insertAll (cells : List (Target × Document)) (shape : Shape) : Shape :=
  cells.foldl (fun shape (target, d) => shape.insert d target) shape

theorem insertAll_cons (cell : Target × Document) (cells : List (Target × Document))
    (shape : Shape) :
    insertAll (cell :: cells) shape = insertAll cells (shape.insert cell.2 cell.1) :=
  rfl

theorem insertAll_append (cells more : List (Target × Document)) (shape : Shape) :
    insertAll (cells ++ more) shape = insertAll more (insertAll cells shape) :=
  List.foldl_append

variable {s : Segment} {ms : List (Segment × Shape)}

theorem changeMember_of_notMem (hs : s ∉ ms.map Prod.fst) (f : Shape → Shape) (more) :
    changeMember s f (ms ++ more) = ms ++ changeMember s f more := by
  induction ms with
  | nil => rfl
  | cons m ms ih =>
    rw [List.map_cons, List.mem_cons, not_or] at hs
    rw [List.cons_append, changeMember, if_neg (Ne.symm hs.1), ih hs.2]
    rfl

/-- A document below a step that is new starts a member at the end. -/
theorem insert_members_new (hs : s ∉ ms.map Prod.fst) (d : Document) (t : Target) :
    (members ms).insert d (s :: t) = members (ms ++ [(s, empty.insert d t)]) := by
  have h := changeMember_of_notMem hs (insert d t) []
  rw [List.append_nil] at h
  exact congrArg members h

/-- A document below the step of the last member goes into that member. -/
theorem insert_members_last (hs : s ∉ ms.map Prod.fst) (shape : Shape) (d : Document)
    (t : Target) :
    (members (ms ++ [(s, shape)])).insert d (s :: t) = members (ms ++ [(s, shape.insert d t)]) := by
  have h := changeMember_of_notMem hs (insert d t) [(s, shape)]
  rw [changeMember, if_pos rfl] at h
  exact congrArg members h

/-- **Cells below one step come together in one member.** -/
theorem insertAll_under (hs : s ∉ ms.map Prod.fst) {cells : List (Target × Document)}
    (hne : cells ≠ []) :
    insertAll (cells.map s.above) (members ms) =
      members (ms ++ [(s, insertAll cells empty)]) := by
  have hlast : ∀ (cells : List (Target × Document)) (shape : Shape),
      insertAll (cells.map s.above) (members (ms ++ [(s, shape)])) =
        members (ms ++ [(s, insertAll cells shape)]) := by
    intro cells
    induction cells with
    | nil => exact fun _ => rfl
    | cons cell cells ih =>
      intro shape
      rw [List.map_cons, insertAll_cons, Segment.above, insert_members_last hs, ih, insertAll_cons]
  obtain ⟨cell, cells, rfl⟩ := List.exists_cons_of_ne_nil hne
  rw [List.map_cons, insertAll_cons, Segment.above, insert_members_new hs, hlast, insertAll_cons]

/-- Below a step it makes no difference whether there are no members or nothing at all. -/
theorem insertAll_empty_of_above {cells : List (Target × Document)} (hne : cells ≠ [])
    (habove : ∀ cell ∈ cells, cell.1 ≠ []) :
    insertAll cells empty = insertAll cells (members []) := by
  obtain ⟨⟨t, d⟩, cells, rfl⟩ := List.exists_cons_of_ne_nil hne
  rw [insertAll_cons, insertAll_cons]
  cases t with
  | nil => exact absurd rfl (habove _ (List.mem_cons_self ..))
  | cons s t => rfl

/-! ### Reading off -/

variable {ds : List (Segment × Document)}

/-- Positions in order are read off as an array. -/
theorem assembleMembers_of_positions (hpositions : ∀ m ∈ ds, m.1.isArg = true)
    (hsorted : ds.Pairwise fun m n => m.1.compare n.1 = .lt) :
    assembleMembers ds = .array (ds.map Prod.snd) := by
  rw [assembleMembers, if_pos (List.all_eq_true.mpr hpositions), List.mergeSort_of_pairwise]
  exact hsorted.imp fun h => by rw [h]; rfl

theorem putMember_of_notMem {name : String} {members : List (String × Document)}
    (h : name ∉ members.map Prod.fst) (d : Document) :
    Document.putMember name d members = members ++ [(name, d)] := by
  induction members with
  | nil => rfl
  | cons m members ih =>
    rw [List.map_cons, List.mem_cons, not_or] at h
    rw [Document.putMember, if_neg (Ne.symm h.1), ih h.2]
    rfl

theorem ofMembers_of_nodup {members : List (String × Document)}
    (h : (members.map Prod.fst).Nodup) : Document.ofMembers members = .object members := by
  have hput : ∀ (rest acc : List (String × Document)), ((acc ++ rest).map Prod.fst).Nodup →
      rest.foldl (fun acc m => Document.putMember m.1 m.2 acc) acc = acc ++ rest := by
    intro rest
    induction rest with
    | nil => exact fun acc _ => (List.append_nil acc).symm
    | cons m rest ih =>
      intro acc hacc
      have hnew : m.1 ∉ acc.map Prod.fst := by
        rw [List.map_append, List.map_cons] at hacc
        exact fun hmem => List.disjoint_of_nodup_append hacc hmem (List.mem_cons_self ..)
      rw [List.foldl_cons, putMember_of_notMem hnew, ih _ (by rwa [List.append_assoc]),
        List.append_assoc]
      rfl
  exact congrArg Document.object (hput members [] h)

/-- Members with different names are read off as an object. -/
theorem assembleMembers_of_names (hne : ds ≠ []) (hnames : ∀ m ∈ ds, m.1.isArg = false)
    (hnodup : (ds.map Prod.fst).Nodup) :
    assembleMembers ds = .object (ds.map fun m => (m.1.text, m.2)) := by
  obtain ⟨m, rest, rfl⟩ := List.exists_cons_of_ne_nil hne
  have hnot : ¬ (((m :: rest).all fun m => m.1.isArg) = true) := by
    rw [List.all_cons, hnames m (List.mem_cons_self ..)]
    exact Bool.false_ne_true
  rw [assembleMembers, if_neg hnot]
  refine ofMembers_of_nodup ?_
  rw [List.map_map]
  show (List.map (Segment.text ∘ Prod.fst) (m :: rest)).Nodup
  rw [← List.map_map]
  refine hnodup.map_on fun a ha b hb hab => ?_
  obtain ⟨x, hx, rfl⟩ := List.mem_map.mp ha
  obtain ⟨y, hy, rfl⟩ := List.mem_map.mp hb
  exact Segment.eq_of_text (hnames x hx) (hnames y hy) hab

end Shape

end NestedQuery
