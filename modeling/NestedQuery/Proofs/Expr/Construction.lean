import NestedQuery.Expr.Basic
import NestedQuery.Proofs.Graph.Shape

/-!
# Constructions

A mapping is a tree: tuples, arrays and objects put parts together, and everything else is a value.
`Expr.construction` is this tree, `Construction.leaves` are its values with the targets where they
stand, and `Construction.document` is the document of the mapping's shape for given values.

Documents are built from the values alone (`insertAll_leaves`), so nothing remains of a construction
without values: what is built is the document of `Construction.pruned`, the tree without such parts
(`toDocument_insertAll_leaves`). That has the shape of the mapping just if no construction is empty,
the whole mapping apart if it is the object without members (`exists_document_pruned_eq_iff`).
-/

namespace NestedQuery

/-- What a mapping puts together. -/
inductive Construction where
  /-- A value. -/
  | value (e : Expr)
  /-- Parts below steps: the members of an object if `named`, else the items of a tuple or an
  array. -/
  | parts (named : Bool) (ps : List (Segment × Construction))

mutual

/-- The construction of a mapping. -/
def Expr.construction : Expr → Construction
  | .tuple items | .array items => .parts false (Expr.itemParts 0 items)
  | .object members => .parts true (Expr.memberParts members)
  | e => .value e
termination_by structural e => e

/-- Items below their positions; `index` is the first one's. -/
def Expr.itemParts (index : Nat) : List Expr → List (Segment × Construction)
  | [] => []
  | e :: es => (.arg index, e.construction) :: Expr.itemParts (index + 1) es
termination_by structural es => es

/-- Members below their names. -/
def Expr.memberParts : List (String × Expr) → List (Segment × Construction)
  | [] => []
  | (name, e) :: es => (.field name, e.construction) :: Expr.memberParts es
termination_by structural es => es

end

namespace Construction

mutual

/-- The values with their targets, in order. -/
def leaves : Construction → List (Target × Expr)
  | value e => [([], e)]
  | parts _ ps => partLeaves ps

/-- The values of parts. -/
def partLeaves : List (Segment × Construction) → List (Target × Expr)
  | [] => []
  | (s, c) :: ps => c.leaves.map s.above ++ partLeaves ps

end

/-- The document that parts make. -/
def assemble (named : Bool) (ds : List (Segment × Document)) : Document :=
  if named then .object (ds.map fun m => (m.1.text, m.2)) else .array (ds.map Prod.snd)

mutual

/-- The document of the construction with the given values at their targets. -/
def document (values : Target → Document) : Construction → Document
  | value _ => values []
  | parts named ps => assemble named (partDocuments values ps)

/-- The documents of parts. -/
def partDocuments (values : Target → Document) :
    List (Segment × Construction) → List (Segment × Document)
  | [] => []
  | (s, c) :: ps => (s, c.document fun t => values (s :: t)) :: partDocuments values ps

end

mutual

/-- The construction without parts that have no values. Of a whole without values an object
without members is left. -/
def pruned : Construction → Construction
  | value e => value e
  | parts named ps => parts (named || (prunedParts ps).isEmpty) (prunedParts ps)

/-- The parts that have values, without parts that have none. -/
def prunedParts : List (Segment × Construction) → List (Segment × Construction)
  | [] => []
  | (s, c) :: ps => if c.leaves.isEmpty then prunedParts ps else (s, c.pruned) :: prunedParts ps

end

mutual

/-- Whether every construction has parts. -/
def isFull : Construction → Bool
  | value _ => true
  | parts _ ps => !ps.isEmpty && areFull ps

/-- Whether every construction within parts has parts. -/
def areFull : List (Segment × Construction) → Bool
  | [] => true
  | (_, c) :: ps => c.isFull && areFull ps

end

/-- The construction without parts. -/
def isEmptyObject : Construction → Bool
  | parts true [] => true
  | _ => false

/-! ### Pruning -/

theorem prunedParts_cons_of_empty {s : Segment} {c : Construction}
    (hc : c.leaves = []) (ps : List (Segment × Construction)) :
    prunedParts ((s, c) :: ps) = prunedParts ps := by
  rw [prunedParts, hc]
  rfl

theorem prunedParts_cons_of_ne {s : Segment} {c : Construction} (hc : c.leaves ≠ [])
    (ps : List (Segment × Construction)) :
    prunedParts ((s, c) :: ps) = (s, c.pruned) :: prunedParts ps := by
  rw [prunedParts, if_neg (by simpa using hc)]

/-- Parts are left just if there are values. -/
theorem prunedParts_eq_nil_iff (ps : List (Segment × Construction)) :
    prunedParts ps = [] ↔ partLeaves ps = [] := by
  induction ps with
  | nil => exact iff_of_true rfl rfl
  | cons p ps ih =>
    obtain ⟨s, c⟩ := p
    rw [partLeaves, List.append_eq_nil_iff, List.map_eq_nil_iff]
    by_cases hc : c.leaves = []
    · rw [prunedParts_cons_of_empty hc, ih]
      exact (and_iff_right hc).symm
    · rw [prunedParts_cons_of_ne hc]
      exact iff_of_false (List.cons_ne_nil _ _) fun h => hc h.1

/-- The steps that are left are some of those before. -/
theorem steps_prunedParts_sublist (ps : List (Segment × Construction)) :
    ((prunedParts ps).map Prod.fst).Sublist (ps.map Prod.fst) := by
  induction ps with
  | nil => exact List.Sublist.slnil
  | cons p ps ih =>
    obtain ⟨s, c⟩ := p
    by_cases hc : c.leaves = []
    · rw [prunedParts_cons_of_empty hc]
      exact ih.cons _
    · rw [prunedParts_cons_of_ne hc]
      exact ih.cons_cons _

theorem pruned_parts_of_ne {ps : List (Segment × Construction)} (h : partLeaves ps ≠ [])
    (named : Bool) : (parts named ps).pruned = parts named (prunedParts ps) := by
  have hne : (prunedParts ps).isEmpty = false := by
    simpa using mt (prunedParts_eq_nil_iff ps).mp h
  rw [pruned, hne, Bool.or_false]

theorem pruned_parts_of_empty {ps : List (Segment × Construction)} (h : partLeaves ps = [])
    (named : Bool) : (parts named ps).pruned = parts true [] := by
  rw [pruned, (prunedParts_eq_nil_iff ps).mpr h, List.isEmpty_nil, Bool.or_true]

mutual

/-- A construction that has values has no empty part left after pruning. -/
theorem isFull_pruned : (c : Construction) → c.leaves ≠ [] → c.pruned.isFull = true
  | value _, _ => rfl
  | parts named ps, h => by
    have hne : (prunedParts ps).isEmpty = false := by
      simpa using mt (prunedParts_eq_nil_iff ps).mp h
    rw [pruned_parts_of_ne h, isFull, hne, areFull_prunedParts ps]
    rfl

theorem areFull_prunedParts :
    (ps : List (Segment × Construction)) → areFull (prunedParts ps) = true
  | [] => rfl
  | (s, c) :: ps => by
    by_cases hc : c.leaves = []
    · rw [prunedParts_cons_of_empty hc]
      exact areFull_prunedParts ps
    · rw [prunedParts_cons_of_ne hc, areFull, isFull_pruned c hc, areFull_prunedParts ps]
      rfl

end

mutual

/-- From a construction without empty parts nothing is left out. -/
theorem pruned_of_isFull : (c : Construction) → c.isFull = true → c.leaves ≠ [] ∧ c.pruned = c
  | value _, _ => ⟨List.cons_ne_nil _ _, rfl⟩
  | parts named ps, h => by
    rw [isFull, Bool.and_eq_true, Bool.not_eq_true', List.isEmpty_eq_false_iff] at h
    obtain ⟨hne, hps⟩ := prunedParts_of_areFull ps h.2
    have hleaves := hne h.1
    exact ⟨hleaves, by rw [pruned_parts_of_ne hleaves, hps]⟩

theorem prunedParts_of_areFull : (ps : List (Segment × Construction)) → areFull ps = true →
    (ps ≠ [] → partLeaves ps ≠ []) ∧ prunedParts ps = ps
  | [], _ => ⟨fun h => absurd rfl h, rfl⟩
  | (s, c) :: ps, h => by
    rw [areFull, Bool.and_eq_true] at h
    obtain ⟨hne, hc⟩ := pruned_of_isFull c h.1
    refine ⟨fun _ hnil => hne ?_, ?_⟩
    · rw [partLeaves, List.append_eq_nil_iff, List.map_eq_nil_iff] at hnil
      exact hnil.1
    · rw [prunedParts_cons_of_ne hne, hc, (prunedParts_of_areFull ps h.2).2]

end

/-- **Nothing is left out just if no construction is empty**, or all there is is an object without
members. -/
theorem pruned_eq_self_iff (c : Construction) :
    c.pruned = c ↔ (c.isFull || c.isEmptyObject) = true := by
  rw [Bool.or_eq_true]
  constructor
  · intro h
    by_cases hleaves : c.leaves = []
    · cases c with
      | value e => exact absurd hleaves (List.cons_ne_nil _ _)
      | parts named ps =>
        rw [← h, pruned_parts_of_empty hleaves]
        exact .inr rfl
    · rw [← h]
      exact .inl (isFull_pruned c hleaves)
  · rintro (h | h)
    · exact (pruned_of_isFull c h).2
    · unfold isEmptyObject at h
      split at h
      · rfl
      · cases h

/-! ### Shapes of documents -/

theorem steps_partDocuments (values : Target → Document) (ps : List (Segment × Construction)) :
    (partDocuments values ps).map Prod.fst = ps.map Prod.fst := by
  induction ps with
  | nil => rfl
  | cons p ps ih => rw [partDocuments, List.map_cons, List.map_cons, ih]

theorem length_partDocuments (values : Target → Document) (ps : List (Segment × Construction)) :
    (partDocuments values ps).length = ps.length := by
  simpa using congrArg List.length (steps_partDocuments values ps)

theorem length_prunedParts_le (ps : List (Segment × Construction)) :
    (prunedParts ps).length ≤ ps.length := by
  simpa using (steps_prunedParts_sublist ps).length_le

/-- The documents of the parts are those of the whole. -/
theorem documents_of_assemble_eq {named : Bool} {ds ds' : List (Segment × Document)}
    (h : assemble named ds = assemble named ds') : ds.map Prod.snd = ds'.map Prod.snd := by
  unfold assemble at h
  split at h
  · have h := congrArg (List.map Prod.snd) (Document.object.inj h)
    rwa [List.map_map, List.map_map] at h
  · exact Document.array.inj h

mutual

/-- A pruned construction has documents of the shape of the whole only if nothing was left out. -/
theorem pruned_eq_of_document_eq : (c : Construction) → (values values' : Target → Document) →
    c.pruned.document values = c.document values' → c.pruned = c
  | value _, _, _, _ => rfl
  | parts named ps, values, values', h => by
    by_cases hleaves : partLeaves ps = []
    · rw [pruned_parts_of_empty hleaves] at h ⊢
      cases named with
      | false => cases h
      | true =>
        have hlength := congrArg List.length (documents_of_assemble_eq h)
        rw [List.length_map, List.length_map, length_partDocuments, length_partDocuments] at hlength
        rw [List.length_eq_zero_iff.mp hlength.symm]
    · rw [pruned_parts_of_ne hleaves] at h ⊢
      rw [prunedParts_eq_of_documents_eq ps values values' (documents_of_assemble_eq h)]

theorem prunedParts_eq_of_documents_eq : (ps : List (Segment × Construction)) →
    (values values' : Target → Document) → (partDocuments values (prunedParts ps)).map Prod.snd =
      (partDocuments values' ps).map Prod.snd → prunedParts ps = ps
  | [], _, _, _ => rfl
  | (s, c) :: ps, values, values', h => by
    by_cases hc : c.leaves = []
    · -- Fewer documents are left than there are parts.
      have hlength := congrArg List.length h
      rw [List.length_map, List.length_map, length_partDocuments, length_partDocuments,
        prunedParts_cons_of_empty hc] at hlength
      have hle := length_prunedParts_le ps
      rw [hlength, List.length_cons] at hle
      omega
    · rw [prunedParts_cons_of_ne hc] at h ⊢
      obtain ⟨hfirst, hrest⟩ := List.cons.inj h
      rw [pruned_eq_of_document_eq c _ _ hfirst, prunedParts_eq_of_documents_eq ps _ _ hrest]

end

/-- **What is left has the shape of the mapping just if no construction is empty**, or all there is
is an object without members. -/
theorem exists_document_pruned_eq_iff (c : Construction) (values : Target → Document) :
    (∃ values', c.pruned.document values = c.document values') ↔
      (c.isFull || c.isEmptyObject) = true := by
  rw [← pruned_eq_self_iff]
  exact ⟨fun ⟨values', h⟩ => pruned_eq_of_document_eq c values values' h,
    fun h => ⟨values, by rw [h]⟩⟩

/-! ### Order -/

/-- The steps to the parts of a construction are different names, or positions in order. -/
structure StepsInOrder (named : Bool) (steps : List Segment) : Prop where
  /-- They are names or positions. -/
  isArg : ∀ s ∈ steps, s.isArg = !named
  /-- They differ. -/
  nodup : steps.Nodup
  /-- Positions are in order. -/
  sorted : named = false → steps.Pairwise fun s t => s.compare t = .lt

mutual

/-- The steps of every construction are in order. -/
def IsOrdered : Construction → Prop
  | value _ => True
  | parts named ps => StepsInOrder named (ps.map Prod.fst) ∧ AreOrdered ps

/-- The steps of every construction within parts are in order. -/
def AreOrdered : List (Segment × Construction) → Prop
  | [] => True
  | (_, c) :: ps => c.IsOrdered ∧ AreOrdered ps

end

theorem StepsInOrder.sublist {named : Bool} {steps steps' : List Segment}
    (h : StepsInOrder named steps) (hsub : steps'.Sublist steps) : StepsInOrder named steps' where
  isArg s hs := h.isArg s (hsub.subset hs)
  nodup := h.nodup.sublist hsub
  sorted hnamed := (h.sorted hnamed).sublist hsub

mutual

theorem IsOrdered.pruned : (c : Construction) → c.IsOrdered → c.pruned.IsOrdered
  | value _, _ => trivial
  | parts named ps, h => by
    by_cases hleaves : partLeaves ps = []
    · rw [pruned_parts_of_empty hleaves]
      exact ⟨⟨nofun, List.nodup_nil, nofun⟩, trivial⟩
    · rw [pruned_parts_of_ne hleaves]
      exact ⟨h.1.sublist (steps_prunedParts_sublist ps), AreOrdered.prunedParts ps h.2⟩

theorem AreOrdered.prunedParts :
    (ps : List (Segment × Construction)) → AreOrdered ps → AreOrdered (prunedParts ps)
  | [], _ => trivial
  | (s, c) :: ps, h => by
    by_cases hc : c.leaves = []
    · rw [prunedParts_cons_of_empty hc]
      exact AreOrdered.prunedParts ps h.2
    · rw [prunedParts_cons_of_ne hc]
      exact ⟨IsOrdered.pruned c h.1, AreOrdered.prunedParts ps h.2⟩

end

/-- The values of parts are those of the first and those of the others. -/
theorem forall_partLeaves_cons_iff {P : Expr → Prop} {s : Segment} {c : Construction}
    {ps : List (Segment × Construction)} : (∀ x ∈ partLeaves ((s, c) :: ps), P x.2) ↔
      (∀ x ∈ c.leaves, P x.2) ∧ ∀ x ∈ partLeaves ps, P x.2 := by
  rw [partLeaves, List.forall_mem_append, List.forall_mem_map]
  exact Iff.rfl

theorem exists_of_mem_partLeaves {ps : List (Segment × Construction)} {x : Target × Expr}
    (h : x ∈ partLeaves ps) : ∃ s ∈ ps.map Prod.fst, ∃ t, x.1 = s :: t := by
  induction ps with
  | nil => exact absurd h List.not_mem_nil
  | cons p ps ih =>
    obtain ⟨s, c⟩ := p
    rcases List.mem_append.mp h with hc | hps
    · obtain ⟨y, -, rfl⟩ := List.mem_map.mp hc
      exact ⟨s, List.mem_cons_self .., y.1, rfl⟩
    · obtain ⟨s', hs', t, ht⟩ := ih hps
      exact ⟨s', List.mem_cons_of_mem _ hs', t, ht⟩

mutual

/-- No two values have the same target. -/
theorem IsOrdered.nodup_targets :
    (c : Construction) → c.IsOrdered → (c.leaves.map Prod.fst).Nodup
  | value _, _ => List.nodup_singleton _
  | parts _ ps, h => AreOrdered.nodup_targets ps h.1.nodup h.2

theorem AreOrdered.nodup_targets : (ps : List (Segment × Construction)) →
    (ps.map Prod.fst).Nodup → AreOrdered ps → ((partLeaves ps).map Prod.fst).Nodup
  | [], _, _ => List.nodup_nil
  | (s, c) :: ps, hsteps, h => by
    obtain ⟨hs, hrest⟩ := List.nodup_cons.mp hsteps
    have hhead : ((c.leaves.map s.above).map Prod.fst).Nodup := by
      have hmap : (c.leaves.map s.above).map Prod.fst = (c.leaves.map Prod.fst).map (s :: ·) := by
        rw [List.map_map, List.map_map]
        rfl
      rw [hmap]
      exact (IsOrdered.nodup_targets c h.1).map (List.cons_injective (a := s))
    rw [partLeaves, List.map_append]
    refine List.nodup_append.mpr ⟨hhead, AreOrdered.nodup_targets ps hrest h.2, ?_⟩
    rintro t ht t' ht' rfl
    obtain ⟨x, hx, rfl⟩ := List.mem_map.mp ht
    obtain ⟨y, -, rfl⟩ := List.mem_map.mp hx
    obtain ⟨x', hx', heq⟩ := List.mem_map.mp ht'
    obtain ⟨s', hs', t', ht'⟩ := exists_of_mem_partLeaves hx'
    obtain ⟨rfl, -⟩ := List.cons.inj (ht'.symm.trans heq)
    exact hs hs'

end

/-! ### Building -/

/-- The given values as cells at the targets of the leaves. -/
def cells (values : Target → Document) (leaves : List (Target × Expr)) : List (Target × Document) :=
  leaves.map fun x => (x.1, values x.1)

mutual

/-- The shape that stands for the document of a construction. -/
def shape (values : Target → Document) : Construction → Shape
  | value _ => .value (values [])
  | parts _ ps => .members (partShapes values ps)

/-- The shapes of parts. -/
def partShapes (values : Target → Document) :
    List (Segment × Construction) → List (Segment × Shape)
  | [] => []
  | (s, c) :: ps => (s, c.shape fun t => values (s :: t)) :: partShapes values ps

end

theorem cells_above (values : Target → Document) (s : Segment) (leaves : List (Target × Expr)) :
    cells values (leaves.map s.above) = (cells (fun t => values (s :: t)) leaves).map s.above := by
  rw [cells, cells, List.map_map, List.map_map]
  rfl

mutual

/-- **Inserting the values builds what is left of the construction.** -/
theorem insertAll_leaves : (c : Construction) → (values : Target → Document) → c.IsOrdered →
    c.leaves ≠ [] → Shape.insertAll (cells values c.leaves) .empty = c.pruned.shape values
  | value _, _, _, _ => rfl
  | parts named ps, values, h, hne => by
    have hcells : cells values (partLeaves ps) ≠ [] := mt List.map_eq_nil_iff.mp hne
    have habove : ∀ cell ∈ cells values (partLeaves ps), cell.1 ≠ [] := by
      intro cell hcell
      obtain ⟨x, hx, rfl⟩ := List.mem_map.mp hcell
      obtain ⟨s, -, t, ht⟩ := exists_of_mem_partLeaves hx
      exact ht ▸ List.cons_ne_nil s t
    rw [pruned_parts_of_ne hne, leaves, Shape.insertAll_empty_of_above hcells habove]
    exact insertAll_partLeaves ps values [] h.1.nodup h.2

/-- `ms` are the members that have been built before. -/
theorem insertAll_partLeaves : (ps : List (Segment × Construction)) →
    (values : Target → Document) → (ms : List (Segment × Shape)) →
    (ms.map Prod.fst ++ ps.map Prod.fst).Nodup → AreOrdered ps →
    Shape.insertAll (cells values (partLeaves ps)) (.members ms) =
      .members (ms ++ partShapes values (prunedParts ps))
  | [], _, ms, _, _ => by
    rw [prunedParts, partShapes, List.append_nil]
    rfl
  | (s, c) :: ps, values, ms, hsteps, h => by
    have hcells : cells values (partLeaves ((s, c) :: ps)) =
        (cells (fun t => values (s :: t)) c.leaves).map s.above
          ++ cells values (partLeaves ps) := by
      rw [partLeaves, ← cells_above]
      exact List.map_append
    rw [hcells, Shape.insertAll_append]
    by_cases hc : c.leaves = []
    · rw [hc, prunedParts_cons_of_empty hc]
      refine insertAll_partLeaves ps values ms (hsteps.sublist ?_) h.2
      exact (List.Sublist.refl _).append (List.sublist_cons_self s _)
    · -- No earlier member has this step, so the cells below it make a new one.
      have hs : s ∉ ms.map Prod.fst := fun hmem =>
        List.disjoint_of_nodup_append hsteps hmem (List.mem_cons_self ..)
      have hne : cells (fun t => values (s :: t)) c.leaves ≠ [] := mt List.map_eq_nil_iff.mp hc
      rw [Shape.insertAll_under hs hne, insertAll_leaves c _ h.1 hc, prunedParts_cons_of_ne hc,
        insertAll_partLeaves ps values _ (by simpa using hsteps) h.2, partShapes,
        List.append_assoc]
      rfl

end

mutual

/-- The shape of a construction without empty parts is read off as its document. -/
theorem toDocument_shape : (c : Construction) → (values : Target → Document) → c.IsOrdered →
    c.isFull = true → (c.shape values).toDocument = c.document values
  | value _, _, _, _ => rfl
  | parts named ps, values, h, hfull => by
    rw [isFull, Bool.and_eq_true, Bool.not_eq_true', List.isEmpty_eq_false_iff] at hfull
    have hsteps := steps_partDocuments values ps
    rw [shape, Shape.toDocument, memberDocuments_partShapes ps values h.2 hfull.2, document,
      assemble]
    have hisArg : ∀ m ∈ partDocuments values ps, m.1.isArg = !named := fun m hm =>
      h.1.isArg m.1 (hsteps ▸ List.mem_map_of_mem hm)
    cases named with
    | false =>
      refine Shape.assembleMembers_of_positions hisArg ?_
      have hsorted := h.1.sorted rfl
      rw [← hsteps] at hsorted
      exact List.pairwise_map.mp hsorted
    | true =>
      refine Shape.assembleMembers_of_names (fun hnil => hfull.1 ?_) hisArg (hsteps ▸ h.1.nodup)
      rw [← List.length_eq_zero_iff, ← length_partDocuments values, hnil, List.length_nil]

theorem memberDocuments_partShapes : (ps : List (Segment × Construction)) →
    (values : Target → Document) → AreOrdered ps → areFull ps = true →
    Shape.memberDocuments (partShapes values ps) = partDocuments values ps
  | [], _, _, _ => rfl
  | (s, c) :: ps, values, h, hfull => by
    rw [areFull, Bool.and_eq_true] at hfull
    rw [partShapes, Shape.memberDocuments, toDocument_shape c _ h.1 hfull.1,
      memberDocuments_partShapes ps values h.2 hfull.2, partDocuments]

end

/-- **What is built from the values of a construction is the document of what has values.** -/
theorem toDocument_insertAll_leaves {c : Construction} (hc : c.IsOrdered)
    (values : Target → Document) :
    (Shape.insertAll (cells values c.leaves) .empty).toDocument = c.pruned.document values := by
  by_cases hne : c.leaves = []
  · rw [hne]
    cases c with
    | value e => cases hne
    | parts named ps =>
      rw [pruned_parts_of_empty hne]
      rfl
  · rw [insertAll_leaves c values hc hne]
    exact toDocument_shape c.pruned values hc.pruned (isFull_pruned c hne)

end Construction

end NestedQuery
