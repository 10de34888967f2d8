import Mathlib.Data.List.Nodup
import Mathlib.Data.List.Sort
import Mathlib.Data.Set.List
import NestedQuery.Proofs.Graph.Grouping
import NestedQuery.Proofs.Graph.Shape

/-!
# Cells are found by their paths

A document is built from cells by putting each of them at the end of its target. If no target is
the beginning of another, and the steps below each place are all names or all positions, then
nothing is lost and nothing comes in between: each cell is found by following its target, names by
name and positions by their rank, and the document has no other members or items
(`Shape.build_exact`).

This rests on one equation. Whatever the order in which the cells come, the members are the first
steps of the cells, each with the shape of the cells below it (`Shape.membersOf_insertAll`).
-/

namespace NestedQuery

namespace Shape

variable {cells : List (Target × Document)} {s : Segment} {outer t : Target} {d : Document}

/-! ### Cells below a place -/

/-- The cells below a place, with their targets seen from there. -/
def cellsBelow (outer : Target) (cells : List (Target × Document)) : List (Target × Document) :=
  cells.filterMap fun cell => (Target.below? outer cell.1).map fun rest => (rest, cell.2)

/-- The first steps of the cells, in the order in which they first come. -/
def firstSteps (cells : List (Target × Document)) : List Segment :=
  (cells.filterMap fun cell => cell.1.head?).eraseDups

theorem mem_cellsBelow : (t, d) ∈ cellsBelow outer cells ↔ (outer ++ t, d) ∈ cells := by
  simp only [cellsBelow, List.mem_filterMap, Option.map_eq_some_iff, Target.below?_eq_some_iff,
    Prod.mk.injEq]
  constructor
  · rintro ⟨⟨_, _⟩, hcell, _, rfl, rfl, rfl⟩
    exact hcell
  · exact fun hcell => ⟨_, hcell, t, rfl, rfl, rfl⟩

theorem cellsBelow_nil (cells : List (Target × Document)) : cellsBelow [] cells = cells :=
  List.filterMap_some

theorem below?_append (outer inner t : Target) :
    Target.below? (outer ++ inner) t = (Target.below? outer t).bind (Target.below? inner) := by
  induction outer generalizing t with
  | nil => rfl
  | cons s outer ih =>
    cases t with
    | nil => rfl
    | cons first rest =>
      rw [List.cons_append, Target.below?, Target.below?]
      by_cases h : s = first
      · rw [if_pos h, if_pos h, ih]
      · rw [if_neg h, if_neg h, Option.bind_none]

/-- What is below a place is reached step by step. -/
theorem cellsBelow_append (outer inner : Target) (cells : List (Target × Document)) :
    cellsBelow (outer ++ inner) cells = cellsBelow inner (cellsBelow outer cells) := by
  rw [cellsBelow, cellsBelow, cellsBelow, List.filterMap_filterMap]
  refine List.filterMap_congr fun cell _ => ?_
  rw [below?_append]
  cases Target.below? outer cell.1 <;> rfl

theorem mem_firstSteps : s ∈ firstSteps cells ↔ ∃ rest d, (s :: rest, d) ∈ cells := by
  rw [firstSteps, List.mem_eraseDups, List.mem_filterMap]
  constructor
  · rintro ⟨⟨t, d⟩, hcell, hs⟩
    obtain ⟨rest, rfl⟩ := List.head?_eq_some_iff.mp hs
    exact ⟨rest, d, hcell⟩
  · rintro ⟨rest, d, hcell⟩
    exact ⟨_, hcell, rfl⟩

theorem nodup_firstSteps (cells : List (Target × Document)) : (firstSteps cells).Nodup :=
  nodup_eraseDups _

/-- There is something below a first step only. -/
theorem cellsBelow_eq_nil (hs : s ∉ firstSteps cells) : cellsBelow [s] cells = [] := by
  refine List.eq_nil_iff_forall_not_mem.mpr fun cell hcell => hs ?_
  exact mem_firstSteps.mpr ⟨cell.1, cell.2, mem_cellsBelow.mp hcell⟩

theorem firstSteps_concat (cells : List (Target × Document)) (s : Segment) (t : Target)
    (d : Document) :
    firstSteps (cells ++ [(s :: t, d)]) =
      if s ∈ firstSteps cells then firstSteps cells else firstSteps cells ++ [s] := by
  have hlast : [(s :: t, d)].filterMap (fun cell : Target × Document => cell.1.head?) = [s] := rfl
  rw [firstSteps, List.filterMap_append, hlast, eraseDups_concat]
  simp only [firstSteps, List.mem_eraseDups]

theorem cellsBelow_concat (cells : List (Target × Document)) (s u : Segment) (t : Target)
    (d : Document) :
    cellsBelow [u] (cells ++ [(s :: t, d)]) =
      if u = s then cellsBelow [u] cells ++ [(t, d)] else cellsBelow [u] cells := by
  rw [cellsBelow, List.filterMap_append, ← cellsBelow]
  by_cases h : u = s
  · simp [Target.below?, h]
  · simp [Target.below?, h]

/-! ### The members of what is built -/

theorem map_fst_pairs {α : Type} (steps : List Segment) (f : Segment → α) :
    (steps.map fun s => (s, f s)).map Prod.fst = steps := by
  rw [List.map_map]
  exact List.map_id steps

/-- Changing the member below a step, among members with different steps. A step that is new starts
empty. -/
theorem changeMember_map {steps : List Segment} (hsteps : steps.Nodup) (f : Shape → Shape)
    {shapeAt : Segment → Shape} (hnew : s ∉ steps → shapeAt s = empty) :
    changeMember s f (steps.map fun u => (u, shapeAt u)) =
      (if s ∈ steps then steps else steps ++ [s]).map fun u =>
        (u, if u = s then f (shapeAt u) else shapeAt u) := by
  -- Members of other steps keep their shapes.
  have hother : ∀ steps : List Segment, s ∉ steps →
      steps.map (fun u => (u, if u = s then f (shapeAt u) else shapeAt u)) =
        steps.map fun u => (u, shapeAt u) := by
    intro steps hs
    refine List.map_congr_left fun u hu => ?_
    have hne : u ≠ s := fun heq => hs (heq ▸ hu)
    rw [if_neg hne]
  by_cases hs : s ∈ steps
  · rw [if_pos hs]
    -- The members before the step are passed over, and the one with the step is changed.
    obtain ⟨before, after, rfl⟩ := List.append_of_mem hs
    obtain ⟨hbefore, hafter⟩ : s ∉ before ∧ s ∉ after := by
      have hnodup := List.nodup_middle.mp hsteps
      rw [List.nodup_cons, List.mem_append, not_or] at hnodup
      exact hnodup.1
    have hfst : s ∉ (before.map fun u => (u, shapeAt u)).map Prod.fst := by
      rwa [map_fst_pairs]
    rw [List.map_append, List.map_append, changeMember_of_notMem hfst, hother before hbefore,
      List.map_cons, List.map_cons, hother after hafter, changeMember, if_pos rfl, if_pos rfl]
  · have hfst : s ∉ (steps.map fun u => (u, shapeAt u)).map Prod.fst := by
      rwa [map_fst_pairs]
    have hlast := changeMember_of_notMem hfst f []
    rw [List.append_nil] at hlast
    rw [hlast, if_neg hs, List.map_append, hother steps hs, changeMember, List.map_singleton,
      if_pos rfl, hnew hs]

/-- **The members are the first steps of the cells**, each with the shape of the cells below it. -/
theorem membersOf_insertAll (hcells : ∀ cell ∈ cells, cell.1 ≠ []) :
    (insertAll cells empty).membersOf =
      (firstSteps cells).map fun s => (s, insertAll (cellsBelow [s] cells) empty) := by
  -- Cells are inserted one after another, so the last one is inserted into what the others made.
  induction cells using List.reverseRecOn with
  | nil => rfl
  | append_singleton cells cell ih =>
    obtain ⟨t, d⟩ := cell
    cases t with
    | nil => exact absurd rfl (hcells _ List.mem_concat_self)
    | cons s t =>
      have ih := ih fun cell hcell => hcells cell (List.mem_append_left _ hcell)
      have hnew : s ∉ firstSteps cells → insertAll (cellsBelow [s] cells) empty = empty :=
        fun hs => by rw [cellsBelow_eq_nil hs]; rfl
      rw [insertAll_append, insertAll_cons, insert, firstSteps_concat]
      refine Eq.trans ?_ ((congrArg (changeMember s (insert d t)) ih).trans
        ((changeMember_map (nodup_firstSteps cells) _ hnew).trans ?_))
      · rfl
      · refine List.map_congr_left fun u _ => ?_
        rw [cellsBelow_concat]
        by_cases hu : u = s
        · rw [if_pos hu, if_pos hu, insertAll_append, insertAll_cons]
          rfl
        · rw [if_neg hu, if_neg hu]

/-- The document that is built from cells, one after another. -/
def build (cells : List (Target × Document)) : Document :=
  (insertAll cells empty).toDocument

theorem memberDocuments_map (steps : List Segment) (shapeAt : Segment → Shape) :
    memberDocuments (steps.map fun s => (s, shapeAt s)) =
      steps.map fun s => (s, (shapeAt s).toDocument) := by
  induction steps with
  | nil => rfl
  | cons s steps ih => rw [List.map_cons, memberDocuments, ih, List.map_cons]

theorem build_eq_assembleMembers (hne : cells ≠ []) (hcells : ∀ cell ∈ cells, cell.1 ≠ []) :
    build cells =
      assembleMembers ((firstSteps cells).map fun s => (s, build (cellsBelow [s] cells))) := by
  have hmembers : insertAll cells empty = members (insertAll cells empty).membersOf := by
    obtain ⟨before, ⟨t, d⟩, rfl⟩ := (List.eq_nil_or_concat' cells).resolve_left hne
    cases t with
    | nil => exact absurd rfl (hcells _ List.mem_concat_self)
    | cons s t => rw [insertAll_append, insertAll_cons, insert]; rfl
  rw [build, hmembers, membersOf_insertAll hcells, toDocument, memberDocuments_map]
  rfl

/-! ### Names and positions -/

/-- Cells that can be put together without loss: no target is the beginning of another, and the
steps below each place are all names or all positions. -/
structure Compatible (cells : List (Target × Document)) : Prop where
  /-- No target is the beginning of another. -/
  apart : cells.Pairwise fun a b => ¬ a.1 <+: b.1 ∧ ¬ b.1 <+: a.1
  /-- Steps below one place are of one kind. -/
  uniform : ∀ (outer : Target) (s t : Segment) (rest rest' : Target),
    outer ++ s :: rest ∈ cells.map Prod.fst → outer ++ t :: rest' ∈ cells.map Prod.fst →
    s.isArg = t.isArg

theorem map_fst_cellsBelow : t ∈ (cellsBelow outer cells).map Prod.fst ↔
    outer ++ t ∈ cells.map Prod.fst := by
  constructor
  · intro h
    obtain ⟨cell, hcell, rfl⟩ := List.mem_map.mp h
    exact List.mem_map.mpr ⟨_, mem_cellsBelow.mp hcell, rfl⟩
  · intro h
    obtain ⟨cell, hcell, heq⟩ := List.mem_map.mp h
    exact List.mem_map.mpr ⟨(t, cell.2), mem_cellsBelow.mpr (heq ▸ hcell), rfl⟩

theorem Compatible.below (h : Compatible cells) (outer : Target) :
    Compatible (cellsBelow outer cells) where
  apart := by
    refine List.Pairwise.filterMap _ (fun a b hab a' ha' b' hb' => ?_) h.apart
    obtain ⟨rest, hrest, rfl⟩ := Option.map_eq_some_iff.mp ha'
    obtain ⟨rest', hrest', rfl⟩ := Option.map_eq_some_iff.mp hb'
    rw [Target.below?_eq_some_iff] at hrest hrest'
    rw [hrest, hrest', List.prefix_append_right_inj, List.prefix_append_right_inj] at hab
    exact hab
  uniform inner s t rest rest' hs ht := by
    rw [map_fst_cellsBelow, ← List.append_assoc] at hs ht
    exact h.uniform (outer ++ inner) s t rest rest' hs ht

/-- A cell at the place itself is the only one. -/
theorem Compatible.eq_singleton (h : Compatible cells) (hd : ([], d) ∈ cells) :
    cells = [([], d)] := by
  obtain ⟨before, after, rfl⟩ := List.append_of_mem hd
  have hapart := List.pairwise_append.mp h.apart
  have hbefore : before = [] := by
    refine List.eq_nil_iff_forall_not_mem.mpr fun cell hcell => ?_
    exact (hapart.2.2 cell hcell _ (List.mem_cons_self ..)).2 List.nil_prefix
  have hafter : after = [] := by
    refine List.eq_nil_iff_forall_not_mem.mpr fun cell hcell => ?_
    exact ((List.pairwise_cons.mp hapart.2.1).1 cell hcell).1 List.nil_prefix
  rw [hbefore, hafter, List.nil_append]

/-- Where a cell is further below, none is at the place itself. -/
theorem Compatible.ne_nil (h : Compatible cells) (hs : (s :: t, d) ∈ cells) :
    ∀ cell ∈ cells, cell.1 ≠ [] := by
  rintro ⟨_, d'⟩ hcell rfl
  rw [h.eq_singleton hcell, List.mem_singleton] at hs
  cases hs

/-- The first steps are all names or all positions. -/
theorem Compatible.exists_names_or_positions (h : Compatible cells) :
    (∃ names : List String, firstSteps cells = names.map .field) ∨
      ∃ positions : List Nat, positions ≠ [] ∧ firstSteps cells = positions.map .arg := by
  have hsame : ∀ s ∈ firstSteps cells, ∀ t ∈ firstSteps cells, s.isArg = t.isArg := by
    intro s hs t ht
    obtain ⟨rest, d, hs⟩ := mem_firstSteps.mp hs
    obtain ⟨rest', d', ht⟩ := mem_firstSteps.mp ht
    exact h.uniform [] s t rest rest' (List.mem_map.mpr ⟨_, hs, rfl⟩)
      (List.mem_map.mpr ⟨_, ht, rfl⟩)
  have hnames : (∀ s ∈ firstSteps cells, s.isArg = false) →
      ∃ names : List String, firstSteps cells = names.map .field := by
    intro hall
    obtain ⟨names, hnames⟩ := (Set.range_list_map Segment.field).ge fun s hs => by
      cases s with
      | field name => exact ⟨name, rfl⟩
      | arg i => cases hall _ hs
    exact ⟨names, hnames.symm⟩
  have hpositions : (∀ s ∈ firstSteps cells, s.isArg = true) →
      ∃ positions : List Nat, firstSteps cells = positions.map .arg := by
    intro hall
    obtain ⟨positions, hpositions⟩ := (Set.range_list_map Segment.arg).ge fun s hs => by
      cases s with
      | field name => cases hall _ hs
      | arg i => exact ⟨i, rfl⟩
    exact ⟨positions, hpositions.symm⟩
  -- The kind of one first step is the kind of all.
  by_cases hnil : firstSteps cells = []
  · exact .inl ⟨[], hnil⟩
  · obtain ⟨first, hfirst⟩ := List.exists_mem_of_ne_nil _ hnil
    cases hkind : first.isArg with
    | false => exact .inl (hnames fun s hs => (hsame s hs first hfirst).trans hkind)
    | true =>
      obtain ⟨positions, heq⟩ := hpositions fun s hs => (hsame s hs first hfirst).trans hkind
      refine .inr ⟨positions, ?_, heq⟩
      rintro rfl
      rw [heq] at hfirst
      cases hfirst

/-! ### Objects and arrays -/

/-- Cells below names are built into an object, with the names in the order in which they first
come. -/
theorem build_of_names {names : List String} (hcells : ∀ cell ∈ cells, cell.1 ≠ [])
    (hnames : firstSteps cells = names.map .field) :
    build cells = .object (names.map fun name =>
      (name, build (cellsBelow [.field name] cells))) := by
  by_cases hne : cells = []
  · subst hne
    obtain rfl := List.map_eq_nil_iff.mp hnames.symm
    rfl
  rw [build_eq_assembleMembers hne hcells, assembleMembers_of_names]
  · rw [List.map_map, hnames, List.map_map]
    rfl
  · -- There is a member, since some cell has a first step.
    obtain ⟨⟨t, d⟩, hcell⟩ := List.exists_mem_of_ne_nil cells hne
    obtain ⟨s, rest, rfl⟩ := List.exists_cons_of_ne_nil (hcells _ hcell)
    exact List.ne_nil_of_mem (List.mem_map.mpr ⟨s, mem_firstSteps.mpr ⟨rest, d, hcell⟩, rfl⟩)
  · intro m hm
    obtain ⟨s, hs, rfl⟩ := List.mem_map.mp hm
    rw [hnames] at hs
    obtain ⟨name, -, rfl⟩ := List.mem_map.mp hs
    rfl
  · rw [map_fst_pairs]
    exact nodup_firstSteps cells

theorem compare_arg_ne_gt (i j : Nat) :
    (Segment.compare (.arg i) (.arg j) != .gt) = decide (i ≤ j) := by
  have hcompare : Segment.compare (.arg i) (.arg j) = compare i j := rfl
  rw [Bool.eq_iff_iff, bne_iff_ne, Ne, hcompare, Nat.compare_eq_gt, Nat.not_lt, decide_eq_true_iff]

/-- Cells below positions are built into an array, in the order of the positions. -/
theorem build_of_positions {positions : List Nat} (hcells : ∀ cell ∈ cells, cell.1 ≠ [])
    (hne : positions ≠ []) (hpositions : firstSteps cells = positions.map .arg) :
    build cells = .array ((positions.mergeSort (· ≤ ·)).map fun i =>
      build (cellsBelow [.arg i] cells)) := by
  have hcellsne : cells ≠ [] := by
    rintro rfl
    exact hne (List.map_eq_nil_iff.mp hpositions.symm)
  rw [build_eq_assembleMembers hcellsne hcells, hpositions, List.map_map, assembleMembers, if_pos,
    ← List.map_mergeSort, List.map_map]
  · rfl
  · exact fun i _ j _ => (compare_arg_ne_gt i j).symm
  · rw [List.all_map, List.all_eq_true]
    exact fun _ _ => rfl

/-! ### Following a path -/

/-- How many of some steps are positions before `i`. -/
def rank (i : Nat) (steps : List Segment) : Nat :=
  steps.countP fun
    | .arg j => j < i
    | .field _ => false

/-- What a step leads to from the document of some cells: a name to the member with this name, a
position to the item at its rank among the positions that the cells have there. -/
def step? (cells : List (Target × Document)) : Segment → Document → Option Document
  | .field name, d => d.member? name
  | .arg i, .array items => items[rank i (firstSteps cells)]?
  | .arg _, _ => none

/-- What a path leads to from the document of some cells. -/
def follow? : Target → List (Target × Document) → Document → Option Document
  | [], _, d => some d
  | s :: rest, cells, d => (step? cells s d).bind (follow? rest (cellsBelow [s] cells))

theorem lookup_map_of_mem {names : List String} {name : String} (h : name ∈ names)
    (f : String → Document) : (names.map fun n => (n, f n)).lookup name = some (f name) := by
  induction names with
  | nil => cases h
  | cons n names ih =>
    rw [List.map_cons, List.lookup_cons]
    by_cases hn : name = n
    · rw [hn, beq_self_eq_true]
    · rw [beq_eq_false_iff_ne.mpr hn]
      exact ih ((List.mem_cons.mp h).resolve_left hn)

/-- In a list in order, a number stands at the place that counts the smaller ones. -/
theorem getElem?_countP_of_pairwise {l : List Nat} (hl : l.Pairwise (· < ·)) {i : Nat}
    (hi : i ∈ l) : l[l.countP (· < i)]? = some i := by
  induction l with
  | nil => cases hi
  | cons a l ih =>
    obtain ⟨ha, hl⟩ := List.pairwise_cons.mp hl
    rcases List.mem_cons.mp hi with rfl | hmem
    · have hnone : l.countP (· < i) = 0 :=
        List.countP_eq_zero.mpr fun b hb => by simpa using Nat.le_of_lt (ha b hb)
      rw [List.countP_cons_of_neg (by simp), hnone]
      rfl
    · rw [List.countP_cons_of_pos (by simpa using ha i hmem), List.getElem?_cons_succ, ih hl hmem]

/-- A first step leads to what is built from the cells below it. -/
theorem step?_build (h : Compatible cells) (hcells : ∀ cell ∈ cells, cell.1 ≠ [])
    (hs : s ∈ firstSteps cells) :
    step? cells s (build cells) = some (build (cellsBelow [s] cells)) := by
  obtain ⟨names, hnames⟩ | ⟨positions, hne, hpositions⟩ := h.exists_names_or_positions
  · rw [hnames] at hs
    obtain ⟨name, hname, rfl⟩ := List.mem_map.mp hs
    rw [build_of_names hcells hnames]
    exact lookup_map_of_mem hname _
  · rw [hpositions] at hs
    obtain ⟨i, hi, rfl⟩ := List.mem_map.mp hs
    have hnodup : positions.Nodup := (hpositions ▸ nodup_firstSteps cells).of_map
    -- The items are in the order of the positions, so the item of `i` stands behind as many as are
    -- less.
    have hperm := List.mergeSort_perm positions (· ≤ ·)
    have hsorted : (positions.mergeSort (· ≤ ·)).Pairwise (· < ·) :=
      (List.pairwise_mergeSort' (· ≤ ·) positions).imp₂ (fun _ _ => Nat.lt_of_le_of_ne)
        (hperm.nodup_iff.mpr hnodup)
    have hrank : rank i (firstSteps cells) = (positions.mergeSort (· ≤ ·)).countP (· < i) := by
      rw [rank, hpositions, List.countP_map, hperm.countP_eq]
      rfl
    rw [build_of_positions hcells hne hpositions, step?, hrank, List.getElem?_map,
      getElem?_countP_of_pairwise hsorted (hperm.mem_iff.mpr hi), Option.map_some]

/-- **A path leads to what is built from the cells below it.** -/
theorem follow?_build (h : Compatible cells) (ht : (outer ++ t, d) ∈ cells) :
    follow? outer cells (build cells) = some (build (cellsBelow outer cells)) := by
  induction outer generalizing cells with
  | nil => rw [follow?, cellsBelow_nil]
  | cons s outer ih =>
    have hs : s ∈ firstSteps cells := mem_firstSteps.mpr ⟨_, _, ht⟩
    have hbelow : (outer ++ t, d) ∈ cellsBelow [s] cells := mem_cellsBelow.mpr ht
    rw [follow?, step?_build h (h.ne_nil ht) hs, Option.bind_some, ih (h.below [s]) hbelow,
      ← cellsBelow_append, List.singleton_append]

/-- **What is built from cells has them at their targets, and nothing else.** Each cell is found by
following its target. The document itself and all that is found on the way is an object with just
the names that come next, in the order in which they first came, or an array with one item for each
position that comes next, in the order of the positions. -/
theorem build_exact (hcells : ∀ cell ∈ cells, cell.1 ≠ []) (h : Compatible cells) :
    (∀ t d, (t, d) ∈ cells → follow? t cells (build cells) = some d) ∧
      ∀ outer, (outer = [] ∨ ∃ s rest d, (outer ++ s :: rest, d) ∈ cells) →
        (∃ names : List String, firstSteps (cellsBelow outer cells) = names.map .field ∧
          follow? outer cells (build cells) = some (.object (names.map fun name =>
            (name, build (cellsBelow (outer ++ [.field name]) cells))))) ∨
        ∃ positions : List Nat, positions ≠ [] ∧
          firstSteps (cellsBelow outer cells) = positions.map .arg ∧
          follow? outer cells (build cells) = some (.array ((positions.mergeSort (· ≤ ·)).map
            fun i => build (cellsBelow (outer ++ [.arg i]) cells))) := by
  constructor
  · intro t d ht
    -- A cell is alone among the cells below its own target.
    have hown : ([], d) ∈ cellsBelow t cells := mem_cellsBelow.mpr (by rwa [List.append_nil])
    rw [follow?_build h (by rwa [List.append_nil]), (h.below t).eq_singleton hown]
    rfl
  · intro outer houter
    -- On the way to a cell there are more steps to come, so no cell ends there.
    obtain ⟨hfollow, hne⟩ : follow? outer cells (build cells) =
        some (build (cellsBelow outer cells)) ∧ ∀ cell ∈ cellsBelow outer cells, cell.1 ≠ [] := by
      obtain rfl | ⟨s, rest, d, hd⟩ := houter
      · rw [cellsBelow_nil]
        exact ⟨rfl, hcells⟩
      · exact ⟨follow?_build h hd, (h.below outer).ne_nil (mem_cellsBelow.mpr hd)⟩
    simp only [cellsBelow_append, hfollow, Option.some.injEq]
    refine (h.below outer).exists_names_or_positions.imp ?_ ?_
    · exact fun ⟨names, hnames⟩ => ⟨names, hnames, build_of_names hne hnames⟩
    · exact fun ⟨positions, hnil, hpositions⟩ =>
        ⟨positions, hnil, hpositions, build_of_positions hne hnil hpositions⟩

/-- The last item comes first, and its members come before and after the first item. -/
def pairCells : List (Target × Document) :=
  [([.arg 2, .field "title"], .text "Art"), ([.arg 0], .text "Ann"),
    ([.arg 2, .field "hours"], .null)]

example : build pairCells =
    .array [.text "Ann", .object [("title", .text "Art"), ("hours", .null)]] := by
  cbv

/-- First steps are positions here, and all later ones are names. -/
theorem compatible_pairCells : Compatible pairCells where
  apart := by decide
  uniform outer s t rest rest' hs ht := by
    have hkind : ∀ (s : Segment) (rest : Target), outer ++ s :: rest ∈ pairCells.map Prod.fst →
        s.isArg = outer.isEmpty := by
      intro s rest h
      rcases outer with _ | ⟨first, _ | ⟨second, outer⟩⟩ <;>
        simp only [pairCells, List.map_cons, List.map_nil, List.cons_append, List.nil_append,
          List.mem_cons, List.cons.injEq, List.append_eq_nil_iff, reduceCtorEq, and_false,
          List.not_mem_nil, or_false, false_or] at h
      · rcases h with ⟨rfl, -⟩ | ⟨rfl, -⟩ | ⟨rfl, -⟩ <;> rfl
      · rcases h with ⟨-, rfl, -⟩ | ⟨-, rfl, -⟩ <;> rfl
    rw [hkind s rest hs, hkind t rest' ht]

theorem build_exact_pairCells :
    follow? [.arg 2, .field "hours"] pairCells (build pairCells) = some .null ∧
      ∃ positions : List Nat, firstSteps pairCells = positions.map .arg ∧
        build pairCells = .array ((positions.mergeSort (· ≤ ·)).map fun i =>
          build (cellsBelow [.arg i] pairCells)) := by
  have hexact := @build_exact pairCells (by decide) compatible_pairCells
  refine ⟨hexact.1 _ _ (by simp [pairCells]), ?_⟩
  obtain ⟨names, hnames, -⟩ | ⟨positions, -, hpositions, hbuild⟩ := hexact.2 [] (.inl rfl)
  · rw [cellsBelow_nil] at hnames
    cases names <;> cases hnames
  · rw [cellsBelow_nil] at hpositions
    exact ⟨positions, hpositions, Option.some.inj hbuild⟩

end Shape

end NestedQuery
